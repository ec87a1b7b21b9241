import Mathlib.Data.List.AList
import Russignol.Signer.HighWatermark

/-!
# Sign requests

`RequestHandler::handle_sign` of `libs/signer/src/server.rs`. A request is refused at the magic
byte, at the key, at the chain, at one of the two prechecks or at the watermark check; past these
it is signed under the watermark write lock, with the record written beside it unless a ceiling on
stable storage covers it. The prechecks read the watermark under a lock of their own, so the
`HighWatermark` they see (`seen`) is an argument apart from the one the check runs on.

What the crates and the kernel answer is an input (`SignIo`); the callbacks fired and the ceiling
thread started are part of the reply. A poisoned lock, which takes a panic, is left out.
-/

namespace Russignol

open Bytes

/-- A BLS signature. -/
abbrev Signature := Fixed 96

/-- `signer::Error`. -/
inductive SignerError
  | bls (text : String)
  | magicByte (e : MagicByteError)
  | signingFailed (text : String)
  | nonBlsKey
  deriving DecidableEq, Repr

/-- `server::Error`, the variants a sign request can return. -/
inductive ServerError
  | signer (e : SignerError)
  | watermark (e : WatermarkError)
  | magicByte (e : MagicByteError)
  | keyNotFound (pkh : String)
  deriving DecidableEq, Repr

/-- `KeyRole`. -/
inductive KeyRole
  | consensus
  | companion
  deriving DecidableEq, Repr

namespace KeyRole

/-- `KeyRole::ALL`. -/
def all : List KeyRole := [consensus, companion]

/-- `KeyRole::device_alias`. -/
def deviceAlias : KeyRole → String
  | consensus => "consensus"
  | companion => "companion"

/-- `KeyRole::index`. -/
def index : KeyRole → Nat
  | consensus => 0
  | companion => 1

/-- `KeyRole::from_device_alias`. -/
def fromDeviceAlias (keyAlias : String) : Option KeyRole :=
  all.find? (·.deviceAlias = keyAlias)

end KeyRole

/-- `Unencrypted`: the secret key, of which the public key and its hash are functions. -/
structure Unencrypted where
  secretKey : Fixed 32
  deriving DecidableEq

/-- `KeyManager`. -/
structure KeyManager where
  signers : AList fun _ : PublicKeyHash => Unencrypted
  keyNames : AList fun _ : PublicKeyHash => String

/-- `KeyManager::add_signer`. -/
def KeyManager.addSigner (m : KeyManager) (pkh : PublicKeyHash) (signer : Unencrypted)
    (name : String) : KeyManager where
  signers := m.signers.insert pkh signer
  keyNames := m.keyNames.insert pkh name

/-- `SignatureActivity`, less the times. -/
structure SignatureActivity where
  level : Option UInt32
  operationType : Option OperationType
  dataSize : Option Nat
  deriving DecidableEq, Repr

/-- The callbacks a sign request can fire, with what they are given. -/
inductive Callback
  | watermarkError (pkh : PublicKeyHash) (chainId : ChainId) (e : WatermarkError)
  | largeGap (pkh : PublicKeyHash) (chainId : ChainId) (currentLevel requestedLevel : UInt32)
  | missingWatermark (pkh : PublicKeyHash) (chainId : ChainId) (requestedLevel : UInt32)
  | unknownKey (pkh : PublicKeyHash)
  | signingNotify
  deriving DecidableEq

/-- A ceiling thread: it sleeps a second, then calls `write_ceiling`. -/
structure CeilingTask where
  pkh : PublicKeyHash
  idx : OperationType
  level : UInt32
  deriving DecidableEq

/-- `RequestHandler`: the fields a sign request reads. A callback is a flag, and so is the
watermark, whose state is the `Store`. -/
structure RequestHandler where
  keys : KeyManager
  watermark : Bool
  provisionedChainId : Option ChainId
  allowedMagicBytes : Option (List UInt8)
  signingActivity : Bool
  watermarkErrorCallback : Bool
  signingNotifyCallback : Bool
  largeGapCallback : Bool
  missingWatermarkCallback : Bool
  unknownKeyCallback : Bool
  blocksPerCycle : Option UInt32

/-- `RequestHandler::new`. The watermark enters through its chain; `none` is no watermark. -/
def RequestHandler.new (keys : KeyManager) (watermark : Option ChainId)
    (allowedMagicBytes : Option (List UInt8)) : RequestHandler where
  keys := keys
  watermark := watermark.isSome
  provisionedChainId := watermark
  allowedMagicBytes := allowedMagicBytes
  signingActivity := false
  watermarkErrorCallback := false
  signingNotifyCallback := false
  largeGapCallback := false
  missingWatermarkCallback := false
  unknownKeyCallback := false
  blocksPerCycle := none

/-- The handler `run_signer_once` builds, with every callback the application has. -/
def RequestHandler.ofSigner (keys : KeyManager) (chainId : ChainId)
    (blocksPerCycle : Option UInt32) : RequestHandler :=
  { RequestHandler.new keys (some chainId) (some MagicBytes.all) with
    signingActivity := true
    watermarkErrorCallback := true
    signingNotifyCallback := true
    largeGapCallback := blocksPerCycle.isSome
    missingWatermarkCallback := true
    unknownKeyCallback := true
    blocksPerCycle }

/-- `LARGE_GAP_CYCLES`. -/
def largeGapCycles : UInt32 := 4

/-- `ParsedSignPayload`. -/
structure ParsedSignPayload where
  chainId : Option ChainId
  opType : Option OperationType
  level : Option UInt32
  round : Option UInt32
  deriving DecidableEq

/-- `parse_sign_payload`. -/
def parseSignPayload (data : List UInt8) : ParsedSignPayload :=
  match data with
  | [] => ⟨none, none, none, none⟩
  | magicByte :: _ =>
    let opType := OperationType.fromMagicByte magicByte
    let levelRound := opType.bind fun t => (MagicBytes.levelRoundOf t data).toOption
    { chainId := (MagicBytes.getChainIdForTenderbake data).map ChainId.ofFour
      opType
      level := levelRound.map (·.1)
      round := levelRound.map (·.2) }

/-- What the kernel and the BLS library answer during one sign request. -/
structure SignIo where
  load : Option LoadFault
  /-- `signer.sign(data, None, None)`. -/
  sign : Except SignerError Signature
  write : WriteIo
  rollback : WriteIo

/-- The outcome of a sign request. -/
structure Reply where
  result : Except ServerError (Signature × Option ChainId)
  callbacks : List Callback
  ceiling : Option CeilingTask
  activity : Option (KeyRole × SignatureActivity)
  store : Store

/-- A refusal. -/
def Reply.refuse (e : ServerError) (callbacks : List Callback) (s : Store) : Reply :=
  { result := .error e, callbacks, ceiling := none, activity := none, store := s }

/-- A callback that is installed fires. -/
def Callback.fire (installed : Bool) (c : Callback) : List Callback := if installed then [c] else []

variable [Blake3] [Base58]

namespace RequestHandler

/-- The alias of a key, lower-cased: it is only compared with the two role aliases, whose letters
no letter outside ASCII lower-cases to. -/
def keyName (h : RequestHandler) (pkh : PublicKeyHash) : String :=
  ((h.keys.keyNames.lookup pkh).getD "").toLower

omit [Blake3] in
/-- `resolve_signer`. -/
def resolveSigner (h : RequestHandler) (pkh : PublicKeyHash) :
    Except ServerError (Unencrypted × String) × List Callback :=
  match h.keys.signers.lookup pkh with
  | some signer => (.ok (signer, h.keyName pkh), [])
  | none =>
    (.error (.keyNotFound pkh.toB58check), Callback.fire h.unknownKeyCallback (.unknownKey pkh))

omit [Blake3] in
/-- The refusal of an operation of another chain. -/
def chainGate (h : RequestHandler) (pkh : PublicKeyHash) (parsed : ParsedSignPayload) :
    Option (ServerError × List Callback) :=
  match parsed.chainId, h.provisionedChainId with
  | some opChain, some provisioned =>
    if opChain ≠ provisioned then
      let err := WatermarkError.chainMismatch provisioned.toB58check opChain.toB58check
      some (.watermark err, Callback.fire h.watermarkErrorCallback (.watermarkError pkh opChain err))
    else none
  | _, _ => none

omit [Blake3] in
/-- The missing-watermark and large-gap prechecks. -/
def precheck (h : RequestHandler) (seen : HighWatermark) (pkh : PublicKeyHash)
    (parsed : ParsedSignPayload) : Option (ServerError × List Callback) :=
  match parsed.chainId, h.watermark, parsed.level with
  | some chainId, true, some requestedLevel =>
    let checkGap := h.largeGapCallback && h.blocksPerCycle.any (fun bpc => decide (bpc > 0))
    let checkMissing := h.missingWatermarkCallback
    if checkGap || checkMissing then
      match seen.getCurrentLevel chainId pkh with
      | none =>
        if checkMissing then
          some (.watermark (.notInitialized chainId.toB58check pkh.toB58check),
            [.missingWatermark pkh chainId requestedLevel])
        else none
      | some currentLevel =>
        if checkGap then
          let blocksPerCycle := h.blocksPerCycle.getD 0
          -- `saturating_sub`
          let gap := if currentLevel ≤ requestedLevel then requestedLevel - currentLevel else 0
          -- a product past 2^32 wraps in a release build
          let threshold := largeGapCycles * blocksPerCycle
          if gap > threshold then
            some (.watermark (.largeLevelGap currentLevel requestedLevel gap (gap / blocksPerCycle)),
              [.largeGap pkh chainId currentLevel requestedLevel])
          else none
        else none
    else none
  | _, _, _ => none

end RequestHandler

/-- The check of a request that names its chain. A body whose level did not parse re-enters the
parsing path for its error. -/
def Store.check (io : SignIo) (chainId : ChainId) (pkh : PublicKeyHash) (data : List UInt8)
    (parsed : ParsedSignPayload) (s : Store) :
    Except WatermarkError (Option WatermarkUpdate) × Store :=
  match parsed.opType, parsed.level, parsed.round with
  | some t, some level, some round => s.checkAndUpdateParsed io.load chainId pkh t level round
  | _, _, _ => s.checkAndUpdate io.load chainId pkh data

/-- The write beside the signature: none where a ceiling covers the update. -/
def Store.persistUpdate (io : SignIo) (u : WatermarkUpdate) (s : Store) :
    Except WatermarkError Unit × Store :=
  if s.wm.ceilingCovers u then (.ok (), s) else s.writeWatermark io.write u

/-- The roll-back when the signature or the write failed: in memory, and on disk too where it was
the signature. An error of the latter is only logged. -/
def Store.undo (io : SignIo) (u : WatermarkUpdate) (written : Except WatermarkError Unit)
    (s : Store) : Store :=
  match io.sign, written with
  | .ok _, .ok () => s
  | .error _, .ok () =>
    (Store.rollbackDiskWatermark io.rollback u { s with wm := s.wm.rollbackUpdate u }).2
  | _, .error _ => { s with wm := s.wm.rollbackUpdate u }

/-- The signature and the write of an update, under the write lock. A failed write wins over a
failed signature. -/
def Store.signAndPersist (io : SignIo) (u : WatermarkUpdate) (s : Store) :
    Except ServerError Signature × Store :=
  match s.persistUpdate io u with
  | (.error e, s) => (.error (.watermark e), s.undo io u (.error e))
  | (.ok (), s) =>
    match io.sign with
    | .error e => (.error (.signer e), s.undo io u (.ok ()))
    | .ok signature => (.ok signature, s)

/-- The ceiling thread of a signed update: `checked_add` starts none past the last level. -/
def WatermarkUpdate.ceilingTask (u : WatermarkUpdate) : Option CeilingTask :=
  if u.level = 0xFFFFFFFF then none else some ⟨u.pkh, u.idx, u.level + 1⟩

namespace RequestHandler

/-- What a successful request records: the activity of its key's role, where there is a tracker
and the alias is a role's. -/
def recordActivity (h : RequestHandler) (keyName : String) (data : List UInt8)
    (parsed : ParsedSignPayload) : Option (KeyRole × SignatureActivity) :=
  if h.signingActivity then
    (KeyRole.fromDeviceAlias keyName).map fun role =>
      (role,
        { level := parsed.level
          operationType := data.head?.bind OperationType.fromMagicByte
          dataSize := some data.length })
  else none

/-- The reply of a request that was signed. -/
def finish (h : RequestHandler) (keyName : String) (data : List UInt8)
    (parsed : ParsedSignPayload) (signature : Signature) (ceiling : Option CeilingTask)
    (s : Store) : Reply :=
  let activity := h.recordActivity keyName data parsed
  { result := .ok (signature, parsed.chainId)
    callbacks :=
      Callback.fire (h.signingNotifyCallback && (!h.signingActivity || activity.isSome))
        .signingNotify
    ceiling, activity, store := s }

/-- A signature with no watermark: another operation, or no watermark is configured. -/
def justSign (h : RequestHandler) (io : SignIo) (keyName : String) (data : List UInt8)
    (parsed : ParsedSignPayload) (s : Store) : Reply :=
  match io.sign with
  | .error e => .refuse (.signer e) [] s
  | .ok signature => h.finish keyName data parsed signature none s

/-- The branch of `handle_sign` under the write lock. -/
def signWatermarked (h : RequestHandler) (io : SignIo) (chainId : ChainId) (pkh : PublicKeyHash)
    (keyName : String) (data : List UInt8) (parsed : ParsedSignPayload) (s : Store) : Reply :=
  match s.check io chainId pkh data parsed with
  | (.error e, s) =>
    .refuse (.watermark e) (Callback.fire h.watermarkErrorCallback (.watermarkError pkh chainId e)) s
  | (.ok none, s) => h.justSign io keyName data parsed s
  | (.ok (some u), s) =>
    match s.signAndPersist io u with
    | (.error e, s) => .refuse e [] s
    | (.ok signature, s) => h.finish keyName data parsed signature u.ceilingTask s

/-- `handle_sign`. -/
def handleSign (h : RequestHandler) (seen : HighWatermark) (io : SignIo) (pkh : PublicKeyHash)
    (data : List UInt8) (s : Store) : Reply :=
  match MagicBytes.checkMagicByte data h.allowedMagicBytes with
  | .error e => .refuse (.magicByte e) [] s
  | .ok () =>
    match h.resolveSigner pkh with
    | (.error e, callbacks) => .refuse e callbacks s
    | (.ok (_, keyName), _) =>
      let parsed := parseSignPayload data
      match h.chainGate pkh parsed with
      | some (e, callbacks) => .refuse e callbacks s
      | none =>
        match h.precheck seen pkh parsed with
        | some (e, callbacks) => .refuse e callbacks s
        | none =>
          match parsed.chainId, h.watermark with
          | some chainId, true => h.signWatermarked io chainId pkh keyName data parsed s
          | _, _ => h.justSign io keyName data parsed s

end RequestHandler

end Russignol
