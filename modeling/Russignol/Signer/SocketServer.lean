import Russignol.Base.Framing
import Russignol.Signer.Device
import Russignol.Signer.ListKeys
import Russignol.Signer.ProtocolCodec

/-!
# The socket server

The TCP server of `libs/signer/src/server.rs`, with `handle_request` and the keys of
`libs/signer/src/signer.rs` and `bls.rs` behind it. A thread serves one connection, request by
request; the accept loop starts the threads, up to a limit, and is itself started again when it
fails. A step is one thing a thread, the accept loop, a client or the rest of the device does, in
any order. A request is one step: what it reads outside the watermark write lock is an input
(`RequestIo.seen`).

What a connection fails with is only logged, and the read and write timeouts show as the end of the
connection, so both are left out past `read_message_length` and `process_request`.
-/

namespace Russignol

open Bytes Encoding

/-! ## Keys -/

section
variable [Blst]

/-- What a key calls of `blst`, `hmac` and `blake2`. A secret key is the bytes of
`SecretKey::to_bytes`. -/
class BlsKeys where
  /-- `sk_to_pk`. -/
  toPublicKey : Fixed 32 → Blst.Pk
  /-- `SecretKey::sign`, of a message under a ciphersuite. -/
  sign : Fixed 32 → List UInt8 → List UInt8 → Blst.Sig
  hmacSha256 : Fixed 32 → List UInt8 → Fixed 32
  blake2b32 : List UInt8 → Fixed 32

/-- `POP_CIPHERSUITE_ID`. -/
def popCiphersuiteId : List UInt8 := Crypto.asBytes "BLS_SIG_BLS12381G2_XMD:SHA-256_SSWU_RO_POP_"

/-- `POP_PROVE_CIPHERSUITE_ID`. -/
def popProveCiphersuiteId : List UInt8 :=
  Crypto.asBytes "BLS_POP_BLS12381G2_XMD:SHA-256_SSWU_RO_POP_"

/-- `SignatureVersion`. -/
inductive SignatureVersion
  | v0
  | v1
  | v2
  deriving DecidableEq, Repr

variable [BlsKeys]

namespace Bls

/-- `bls::sign`. -/
def sign (sk : Fixed 32) (msg : List UInt8) (watermark : Option (List UInt8)) : BlsSignature :=
  match watermark with
  | some pre => BlsKeys.sign sk (pre ++ msg) popCiphersuiteId
  | none => BlsKeys.sign sk msg popCiphersuiteId

/-- `bls::pop_prove`. -/
def popProve (sk : Fixed 32) (msg : Option (List UInt8)) : BlsSignature :=
  BlsKeys.sign sk (msg.getD []) popProveCiphersuiteId

/-- `bls::deterministic_nonce`. -/
def deterministicNonce (sk : Fixed 32) (msg : List UInt8) : Fixed 32 := BlsKeys.hmacSha256 sk msg

/-- `bls::deterministic_nonce_hash`. -/
def deterministicNonceHash (sk : Fixed 32) (msg : List UInt8) : Fixed 32 :=
  BlsKeys.blake2b32 (deterministicNonce sk msg).1

end Bls

namespace Unencrypted

/-- `Unencrypted::public_key`, as the point it is. -/
def publicKeyPoint (k : Unencrypted) : PublicKey := BlsKeys.toPublicKey k.secretKey

/-- `Unencrypted::sign`. -/
def sign (k : Unencrypted) (data : List UInt8) (watermark : Option (List UInt8))
    (version : Option SignatureVersion) : Except SignerError BlsSignature :=
  match version with
  | some .v0 => .error (.signingFailed "BLS12-381 not supported in Signature version 0")
  | some .v1 => .error (.signingFailed "BLS12-381 not supported in Signature version 1")
  | some .v2 | none => .ok (Bls.sign k.secretKey data watermark)

/-- `Unencrypted::bls_prove_possession`. -/
def blsProvePossession (k : Unencrypted) (overridePk : Option PublicKey) :
    Except SignerError BlsSignature :=
  let msgToSign := match overridePk with
    | some pk => (Blst.pkToBytes pk).1
    | none => (Blst.pkToBytes k.publicKeyPoint).1
  .ok (Bls.popProve k.secretKey (some msgToSign))

end Unencrypted

end

/-! ## The texts of the errors -/

/-- `signer::Error`, displayed. -/
def SignerError.toString : SignerError → String
  | bls text => "BLS error: " ++ text
  | magicByte e => "Magic byte error: " ++ e.toString
  | signingFailed text => "Signing failed: " ++ text
  | nonBlsKey => "Proof of possession can only be requested for BLS keys"

/-- `WatermarkError`, displayed. -/
def WatermarkError.toString : WatermarkError → String
  | levelTooLow current requested =>
    s!"Level too low: requested {requested}, current high watermark {current}"
  | roundTooLow level current requested =>
    s!"Round too low at level {level}: requested {requested}, current high watermark {current}"
  | invalidData text => "Invalid data: " ++ text
  | io e => "IO error: " ++ e
  | internal text => "Internal error: " ++ text
  | notInitialized chainId pkh =>
    s!"Watermark not initialized for chain {chainId}, key {pkh}. Configure watermarks before " ++
      "signing."
  | largeLevelGap currentLevel requestedLevel gap cycles =>
    s!"Large level gap: {gap} blocks (~{cycles} cycles). Current: {currentLevel}, requested: " ++
      s!"{requestedLevel}"
  | chainMismatch expected got =>
    s!"Chain mismatch: provisioned for {expected}, operation for {got}"

/-- `server::Error`, displayed: the variants a sign request can return. -/
def ServerError.toString : ServerError → String
  | signer e => "Signer error: " ++ e.toString
  | watermark e => "Watermark error: " ++ e.toString
  | magicByte e => "Magic byte error: " ++ e.toString
  | keyNotFound pkh => "Key not found: " ++ pkh

/-- `server::Error`, the variants a request can return. -/
inductive RequestError
  | server (e : ServerError)
  | notAuthorized (text : String)
  deriving DecidableEq, Repr

/-- `server::Error`, displayed. -/
def RequestError.toString : RequestError → String
  | server e => e.toString
  | notAuthorized text => "Operation not authorized: " ++ text

/-! ## Requests -/

variable [Blake3] [Base58]

/-- A server: the card it signs for, the other settings of its `RequestHandler` and its own. -/
structure SocketConfig where
  card : Card
  allowListKnownKeys : Bool
  allowProvePossession : Bool
  maxMessageSize : Nat
  maxConnections : Nat

/-- The server of `run_signer_once`, with the defaults of `Server::new`. -/
def SocketConfig.ofSigner (card : Card) : SocketConfig where
  card := card
  allowListKnownKeys := true
  allowProvePossession := true
  maxMessageSize := 64 * 1024
  maxConnections := 4

/-- The watermark a request sees before it takes the write lock, what the kernel answers it, the
order in which the hash maps are iterated, and how much of the response goes out where a write
fails. -/
structure RequestIo (keys : KeyManager) where
  seen : HighWatermark
  load : Option LoadFault
  write : WriteIo
  rollback : WriteIo
  order : keys.Iteration
  sent : Option Nat

variable [Blst]

/-- The outcome of a request. -/
structure RequestReply where
  result : Except RequestError (SignerResponse × Option ChainId)
  callbacks : List Callback
  ceiling : Option CeilingTask
  activity : Option (KeyRole × SignatureActivity)
  store : Store

namespace SocketConfig

variable (cfg : SocketConfig)

/-- The handler of the server. -/
abbrev handler : RequestHandler := cfg.card.handler

/-- The keys of the server. -/
abbrev keys : KeyManager := cfg.card.handler.keys

/-- A request that moves nothing: it is answered from a key, if the signer holds it
(`get_signer_or_alert`). -/
def onKey (pkh : PublicKeyHash) (answer : Unencrypted → Except SignerError SignerResponse)
    (s : Store) : RequestReply :=
  match cfg.handler.resolveSigner pkh with
  | (.error e, callbacks) => ⟨.error (.server e), callbacks, none, none, s⟩
  | (.ok (signer, _), callbacks) =>
    ⟨((answer signer).mapError (.server ∘ .signer)).map (·, none), callbacks, none, none, s⟩

/-- A request that moves nothing and names no key. -/
def plain (result : Except RequestError SignerResponse) (s : Store) : RequestReply :=
  ⟨result.map (·, none), [], none, none, s⟩

/-- `handle_authorized_keys`. -/
def handleAuthorizedKeys (s : Store) : RequestReply := plain (.ok (.authorizedKeys none)) s

/-- `handle_known_keys`. -/
def handleKnownKeys (order : cfg.keys.Iteration) (s : Store) : RequestReply :=
  if cfg.allowListKnownKeys then plain (.ok (.knownKeys (KeyManager.listKeys order))) s
  else
    plain (.error (.notAuthorized <| "Listing known keys is not authorized. " ++
      "Use --allow-list-known-keys to enable.")) s

variable [BlsKeys]

/-- `handle_public_key`. -/
def handlePublicKey (pkh : PublicKeyHash) : Store → RequestReply :=
  cfg.onKey pkh fun signer => .ok (.publicKey signer.publicKeyPoint)

/-- `handle_deterministic_nonce`. -/
def handleDeterministicNonce (pkh : PublicKeyHash) (data : List UInt8) : Store → RequestReply :=
  cfg.onKey pkh fun signer => .ok (.nonce (Bls.deterministicNonce signer.secretKey data))

/-- `handle_deterministic_nonce_hash`. -/
def handleDeterministicNonceHash (pkh : PublicKeyHash) (data : List UInt8) :
    Store → RequestReply :=
  cfg.onKey pkh fun signer => .ok (.nonceHash (Bls.deterministicNonceHash signer.secretKey data))

omit [BlsKeys] in
/-- `handle_supports_deterministic_nonces`. -/
def handleSupportsDeterministicNonces (pkh : PublicKeyHash) : Store → RequestReply :=
  cfg.onKey pkh fun _ => .ok (.bool true)

/-- `handle_bls_prove`. -/
def handleBlsProve (pkh : PublicKeyHash) (overridePk : Option PublicKey) (s : Store) :
    RequestReply :=
  if cfg.allowProvePossession then
    cfg.onKey pkh (fun signer => (signer.blsProvePossession overridePk).map .signature) s
  else
    plain (.error (.notAuthorized <| "Proof of possession is not authorized. " ++
      "Use --allow-to-prove-possession to enable.")) s

/-- What `signer.sign(data, None, None)` returns in a sign request. A key that is not held is
refused before. -/
def signData (pkh : PublicKeyHash) (data : List UInt8) : Except SignerError BlsSignature :=
  match cfg.keys.signers.lookup pkh with
  | some signer => signer.sign data none none
  | none => .error (.signingFailed "")

/-- What the kernel and the key answer a sign request. -/
def signIo (io : RequestIo cfg.keys) (pkh : PublicKeyHash) (data : List UInt8) : SignIo where
  load := io.load
  sign := (cfg.signData pkh data).map Blst.sigToBytes
  write := io.write
  rollback := io.rollback

/-- `handle_sign`, with the signature as the key gave it. -/
def handleSign (io : RequestIo cfg.keys) (pkh : PublicKeyHash) (data : List UInt8) (s : Store) :
    RequestReply :=
  let reply := cfg.handler.handleSign io.seen (cfg.signIo io pkh data) pkh data s
  { result := match reply.result with
      | .error e => .error (.server e)
      | .ok (_, chainId) =>
        ((cfg.signData pkh data).mapError (.server ∘ .signer)).map fun sig =>
          (.signature sig, chainId)
    callbacks := reply.callbacks
    ceiling := reply.ceiling
    activity := reply.activity
    store := reply.store }

/-- `handle_request`. -/
def handleRequest (io : RequestIo cfg.keys) (req : SignerRequest) (s : Store) : RequestReply :=
  match req with
  | .sign (pkh, _) data _ => cfg.handleSign io pkh data s
  | .publicKey pkh => cfg.handlePublicKey pkh s
  | .authorizedKeys => handleAuthorizedKeys s
  | .deterministicNonce pkh data _ => cfg.handleDeterministicNonce pkh.1 data s
  | .deterministicNonceHash pkh data _ => cfg.handleDeterministicNonceHash pkh.1 data s
  | .supportsDeterministicNonces pkh => cfg.handleSupportsDeterministicNonces pkh s
  | .knownKeys => cfg.handleKnownKeys io.order s
  | .blsProveRequest pkh overridePk => cfg.handleBlsProve pkh overridePk s

end SocketConfig

/-! ## Messages on a connection -/

/-- `u16::to_be_bytes`. -/
def be16 (n : Nat) : List UInt8 := [UInt8.ofNat (n / 256), UInt8.ofNat n]

/-- `u16::from_be_bytes`. -/
def ofBe16 (b : Fixed 2) : Nat := (b.get 0).toNat * 256 + (b.get 1).toNat

/-- A message goes behind its length in two bytes. -/
def messageHeader : Header UInt8 where
  width := 2
  limit := 65535
  encode := be16
  decode := ofBe16
  width_pos := Nat.two_pos
  length_encode _ := rfl
  decode_encode n hn := by
    show (UInt8.ofNat (n / 256)).toNat * 256 + (UInt8.ofNat n).toNat = n
    rw [UInt8.toNat_ofNat', UInt8.toNat_ofNat']
    omega
  encode_decode := by
    rintro ⟨h, hlen⟩
    match h, hlen with
    | [a, b], _ =>
      have ha := a.toNat_lt
      have hb := b.toNat_lt
      have hhigh : (a.toNat * 256 + b.toNat) / 256 = a.toNat := by omega
      refine ⟨?_, show a.toNat * 256 + b.toNat ≤ 65535 by omega⟩
      show [UInt8.ofNat ((a.toNat * 256 + b.toNat) / 256), UInt8.ofNat (a.toNat * 256 + b.toNat)] =
        [a, b]
      rw [hhigh, UInt8.ofNat_toNat]
      congr 2
      apply UInt8.toNat_inj.1
      rw [UInt8.toNat_ofNat']
      omega

/-- `server::Error`, the variants that end a connection. -/
inductive SocketError
  | io (text : String)
  | protocol (e : ProtocolError)
  | messageTooLarge (size : Nat)
  deriving DecidableEq, Repr

/-- `check_http_and_size_error`. -/
def checkHttpAndSizeError (lenBuf : Fixed 2) (msgLen : Nat) : SocketError :=
  let possibleHttp := Lossy.chars none lenBuf.1
  if "GET ".toList.isPrefixOf possibleHttp || "POST".toList.isPrefixOf possibleHttp ||
      "HEAD".toList.isPrefixOf possibleHttp then
    .io "HTTP protocol not supported - use raw TCP (tcp://... or just address)"
  else .messageTooLarge msgLen

/-- `read_message_length`, of the two bytes it read. -/
def readMessageLength (maxMessageSize : Nat) (lenBuf : Fixed 2) : Except SocketError Nat :=
  let msgLen := ofBe16 lenBuf
  if msgLen > maxMessageSize then .error (checkHttpAndSizeError lenBuf msgLen) else .ok msgLen

/-- What a thread finds when it reads a message: bytes are missing yet, a length that is refused,
or the message and what follows it. -/
inductive Arrival
  | pending
  | refused (e : SocketError)
  | message (msg rest : List UInt8)
  deriving DecidableEq, Repr

/-- The two reads of a message, on what has arrived. -/
def arrival (maxMessageSize : Nat) (inbox : List UInt8) : Arrival :=
  match Reader.readExact () 2 inbox with
  | .error _ => .pending
  | .ok (lenBuf, rest) =>
    match readMessageLength maxMessageSize lenBuf with
    | .error e => .refused e
    | .ok msgLen =>
      match Reader.readExact () msgLen rest with
      | .error _ => .pending
      | .ok (msg, rest) => .message msg.1 rest

namespace SocketConfig

variable [BlsKeys] [Bson] (cfg : SocketConfig)

/-- What a request leaves of the device: the store and the ceiling thread, and the log of what was
signed. -/
def noted (d : Device) (req : SignerRequest) (reply : RequestReply) : Device where
  proc := some reply.store.wm
  disk := reply.store.disk
  scheduled := d.scheduled ++ reply.ceiling.toList
  signed := match req, reply.result with
    | .sign (pkh, _) data _, .ok _ => (pkh, data) :: d.signed
    | _, _ => d.signed

/-- The response to a request: an error is one too. -/
def responseOf (reply : RequestReply) : SignerResponse :=
  match reply.result with
  | .ok (resp, _) => resp
  | .error e => .error e.toString

/-- The frame of a response. -/
def encodeFrame (resp : SignerResponse) : Except SocketError (List UInt8) := do
  let data ← (encodeResponse resp).mapError .protocol
  if data.length ≤ 65535 then return messageHeader.frame data
  else throw (.io "Response too large for OCaml protocol (max 65535 bytes)")

/-- `process_request` up to the write: the device after it, and the request with its response and
the frame to send. -/
def processRequest (io : RequestIo cfg.keys) (msg : List UInt8) (d : Device) (wm : HighWatermark) :
    Device × Except SocketError (SignerRequest × SignerResponse × List UInt8) :=
  match decodeRequest msg with
  | .error e => (d, .error (.protocol e))
  | .ok req =>
    let reply := cfg.handleRequest io req ⟨wm, d.disk⟩
    (noted d req reply, (encodeFrame (responseOf reply)).map (req, responseOf reply, ·))

end SocketConfig

/-! ## The server -/

/-- Where the thread of a connection is: started, in the callback of an open connection, in the
loop over its requests, past it, in the callback of a closed connection, past it, and gone. The
connection guard is dropped last. -/
inductive Phase
  | spawned
  | opening
  | serving
  | left
  | closing
  | closed
  | ended
  deriving DecidableEq, Repr

/-- A connection: the accept loop that took it, what has arrived on it, what of that is not read
yet, and what was written. -/
structure Conn where
  generation : Nat
  phase : Phase
  received : List UInt8
  inbox : List UInt8
  outbox : List UInt8
  deriving DecidableEq, Repr

/-- The server on its device. -/
structure SocketServer where
  device : Device
  /-- How often the accept loop was started again. -/
  generation : Nat
  /-- The connection counter of this accept loop. -/
  counter : Nat
  /-- Every connection so far, by its number. -/
  conns : List Conn
  /-- The requests answered, by their connections, the latest first. -/
  transcript : List (Nat × SignerRequest × SignerResponse)

/-- What can happen to a server. -/
inductive SocketEvent (cfg : SocketConfig)
  /-- A client connects. -/
  | accept
  /-- `accept` fails, and `start_integrated_signer` starts the server again. -/
  | acceptFailed
  /-- `configure_socket`, then `notify_request_received`. -/
  | configure (i : Nat) (ok : Bool)
  /-- The callback of an open connection returns. -/
  | opened (i : Nat)
  /-- The client sends. -/
  | receive (i : Nat) (bytes : List UInt8)
  /-- The thread reads a message and processes it. -/
  | serve (i : Nat) (io : RequestIo cfg.keys)
  /-- The client closes, or a read fails or times out. -/
  | hangUp (i : Nat)
  /-- `notify_request_complete`. -/
  | complete (i : Nat)
  /-- The callback of a closed connection returns. -/
  | completed (i : Nat)
  /-- The connection guard is dropped. -/
  | drop (i : Nat)
  | fire (i : Nat) (io : WriteIo)
  | confirm (fault : Option LoadFault) (ios : OperationType → WriteIo) (chainId : ChainId)
      (pkh : PublicKeyHash) (level : UInt32)
  /-- The power is lost, and a new process starts. -/
  | restart (io : LoadIo)

namespace SocketServer

/-- A server whose accept loop is entered. -/
def start (d : Device) : SocketServer := ⟨d, 0, 0, [], []⟩

/-- A thread moves on. -/
def move (s : SocketServer) (i : Nat) (p q : Phase) : Option SocketServer :=
  s.conns[i]?.bind fun c =>
    if c.phase = p then some { s with conns := s.conns.set i { c with phase := q } } else none

/-- `ConnectionGuard::drop`. A guard of an earlier accept loop counts down the counter of that. -/
def dropGuard (s : SocketServer) (i : Nat) : Option SocketServer :=
  s.conns[i]?.bind fun c =>
    if c.phase = .closed then
      some { s with
        counter := if c.generation = s.generation then s.counter - 1 else s.counter
        conns := s.conns.set i { c with phase := .ended } }
    else none

variable [BlsKeys] [Bson] (cfg : SocketConfig)

/-- One round of `handle_connection_inner`. What a thread had read when it gave up counts as not
read. -/
def serve (s : SocketServer) (i : Nat) (c : Conn) (io : RequestIo cfg.keys) (wm : HighWatermark) :
    Option SocketServer :=
  match arrival cfg.maxMessageSize c.inbox with
  | .pending => none
  | .refused _ => some { s with conns := s.conns.set i { c with phase := .left } }
  | .message msg rest =>
    match cfg.processRequest io msg s.device wm, io.sent with
    | (d, .error _), _ =>
      some { s with device := d, conns := s.conns.set i { c with phase := .left } }
    | (d, .ok (_, _, frame)), some n =>
      -- a write failed before the last byte
      some { s with
        device := d
        conns := s.conns.set i
          { c with phase := .left, outbox := c.outbox ++ frame.dropLast.take n } }
    | (d, .ok (req, resp, frame)), none =>
      some { s with
        device := d
        conns := s.conns.set i { c with inbox := rest, outbox := c.outbox ++ frame }
        transcript := (i, req, resp) :: s.transcript }

/-- Take an action of the device beside the server. -/
def onDevice (s : SocketServer) (a : Action) : Option SocketServer :=
  (s.device.step cfg.card a).map fun d => { s with device := d }

/-- Take an event; `none` where it cannot happen. -/
def step (s : SocketServer) : SocketEvent cfg → Option SocketServer
  | .accept =>
    s.device.proc.map fun _ =>
      if s.counter ≥ cfg.maxConnections then s
      else
        { s with
          counter := s.counter + 1
          conns := s.conns ++ [⟨s.generation, .spawned, [], [], []⟩] }
  | .acceptFailed => some { s with generation := s.generation + 1, counter := 0 }
  | .configure i ok => s.move i .spawned (if ok then .opening else .closed)
  | .opened i => s.move i .opening .serving
  | .receive i bytes =>
    s.conns[i]?.map fun c =>
      { s with
        conns := s.conns.set i
          { c with received := c.received ++ bytes, inbox := c.inbox ++ bytes } }
  | .serve i io =>
    s.conns[i]?.bind fun c => s.device.proc.bind fun wm =>
      if c.phase = .serving then s.serve cfg i c io wm else none
  | .hangUp i => s.move i .serving .left
  | .complete i => s.move i .left .closing
  | .completed i => s.move i .closing .closed
  | .drop i => s.dropGuard i
  | .fire i io => s.onDevice cfg (.fire i io)
  | .confirm fault ios chainId pkh level => s.onDevice cfg (.confirm fault ios chainId pkh level)
  | .restart io =>
    (s.device.step cfg.card (.restart io)).map fun d =>
      { s with
        device := d
        generation := s.generation + 1
        counter := 0
        conns := s.conns.map fun c => { c with phase := .ended } }

/-- The entries a client was sent a signature of, for a key and operation type, the latest first. -/
def delivered (s : SocketServer) (k : PublicKeyHash) (t : OperationType) : List WatermarkEntry :=
  s.transcript.filterMap fun
    | (_, .sign (pkh, _) data _, .signature _) =>
      (markOf data).bind fun (t', x) => if pkh = k ∧ t' = t then some x else none
    | _ => none

/-- What a connection was answered, in order. -/
def answers (s : SocketServer) (i : Nat) : List (SignerRequest × SignerResponse) :=
  (s.transcript.filter (·.1 = i)).reverse.map (·.2)

end SocketServer

end Russignol
