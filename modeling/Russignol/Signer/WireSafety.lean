import Russignol.Signer.NoDoubleSign
import Russignol.Signer.SocketServer

/-!
# Signatures on the wire

What the clients of a `SocketServer` are sent. A request of any connection leaves of the device
either nothing or what one `Action.sign` leaves (`processRequest_device`), so whatever the
connections, a run of the server is a run of the `Device` behind it, and the signatures that go out
for one key and operation type strictly increase (`delivered_increases`). The key that answers never
fails, so no request takes the path on which a failed signature could lower a record.
-/

namespace Russignol

open Bytes Encoding FloorRegister Relation

section
variable [Blake3] [Base58]

namespace RequestHandler

/-- A request for a key that is not held is refused, whatever the kernel would have answered. -/
theorem handleSign_unheld (h : RequestHandler) {pkh : PublicKeyHash}
    (hunheld : h.keys.signers.lookup pkh = none) (seen : HighWatermark) (io io' : SignIo)
    (data : List UInt8) (s : Store) :
    h.handleSign seen io pkh data s = h.handleSign seen io' pkh data s ∧
      ∃ e, (h.handleSign seen io pkh data s).result = .error e := by
  unfold handleSign resolveSigner
  rw [hunheld]
  cases MagicBytes.checkMagicByte data h.allowedMagicBytes with
  | error e => exact ⟨rfl, _, rfl⟩
  | ok _ => exact ⟨rfl, _, rfl⟩

end RequestHandler

namespace SocketConfig

variable [Blst] [BlsKeys] (cfg : SocketConfig)

/-- A request that was signed has the signature of its key. -/
theorem signData_of_ok {io : RequestIo cfg.keys} {pkh : PublicKeyHash} {data : List UInt8}
    {s : Store} {v : Signature × Option ChainId}
    (h : (cfg.handler.handleSign io.seen (cfg.signIo io pkh data) pkh data s).result = .ok v) :
    ∃ signer, cfg.keys.signers.lookup pkh = some signer ∧
      cfg.signData pkh data = .ok (Bls.sign signer.secretKey data none) := by
  cases hlookup : cfg.keys.signers.lookup pkh with
  | none =>
    obtain ⟨-, e, he⟩ := cfg.handler.handleSign_unheld hlookup io.seen (cfg.signIo io pkh data)
      (cfg.signIo io pkh data) data s
    cases he.symm.trans h
  | some signer =>
    refine ⟨signer, rfl, ?_⟩
    rw [signData, hlookup]
    rfl

/-- What a sign request leaves of the device is what the action of it leaves. -/
theorem noted_sign {d : Device} {wm : HighWatermark} (hproc : d.proc = some wm)
    (io : RequestIo cfg.keys) (pkh : VersionedPublicKeyHash) (data : List UInt8)
    (sig : Option BlsSignature) :
    d.step cfg.card (.sign io.seen (cfg.signIo io pkh.1 data) pkh.1 data) =
      some (noted d (.sign pkh data sig) (cfg.handleRequest io (.sign pkh data sig)
        ⟨wm, d.disk⟩)) := by
  obtain ⟨pkh, version⟩ := pkh
  rw [Device.step, hproc, Option.map_some]
  simp only [noted, handleRequest, handleSign]
  cases hresult : (cfg.handler.handleSign io.seen (cfg.signIo io pkh data) pkh data
      ⟨wm, d.disk⟩).result with
  | error e => rfl
  | ok v =>
    obtain ⟨signer, -, hsign⟩ := cfg.signData_of_ok hresult
    rw [hsign]
    rfl

omit [Blake3] [BlsKeys] in
/-- An answer from a key moves nothing. -/
theorem onKey_store (pkh : PublicKeyHash) (answer : Unencrypted → Except SignerError SignerResponse)
    (s : Store) : (cfg.onKey pkh answer s).store = s ∧ (cfg.onKey pkh answer s).ceiling = none := by
  unfold onKey
  split <;> exact ⟨rfl, rfl⟩

/-- Only a sign request moves the store or starts a thread. -/
theorem handleRequest_store (io : RequestIo cfg.keys) {req : SignerRequest} (s : Store)
    (hreq : ∀ pkh data sig, req ≠ .sign pkh data sig) :
    (cfg.handleRequest io req s).store = s ∧ (cfg.handleRequest io req s).ceiling = none := by
  cases req with
  | sign pkh data sig => exact absurd rfl (hreq pkh data sig)
  | publicKey | deterministicNonce | deterministicNonceHash | supportsDeterministicNonces =>
    exact cfg.onKey_store _ _ s
  | authorizedKeys => exact ⟨rfl, rfl⟩
  | knownKeys =>
    simp only [handleRequest, handleKnownKeys]
    split <;> exact ⟨rfl, rfl⟩
  | blsProveRequest pkh overridePk =>
    simp only [handleRequest, handleBlsProve]
    split
    · exact cfg.onKey_store _ _ s
    · exact ⟨rfl, rfl⟩

/-- Another request leaves the device as it was. -/
theorem noted_other {d : Device} {wm : HighWatermark} (hproc : d.proc = some wm)
    (io : RequestIo cfg.keys) {req : SignerRequest}
    (hreq : ∀ pkh data sig, req ≠ .sign pkh data sig) :
    noted d req (cfg.handleRequest io req ⟨wm, d.disk⟩) = d := by
  obtain ⟨hstore, hceiling⟩ := cfg.handleRequest_store io (⟨wm, d.disk⟩ : Store) hreq
  have hsigned : (noted d req (cfg.handleRequest io req ⟨wm, d.disk⟩)).signed = d.signed := by
    unfold noted
    dsimp only
    split
    · exact absurd rfl (hreq _ _ _)
    · rfl
  obtain ⟨proc, disk, scheduled, signed⟩ := d
  unfold noted at hsigned ⊢
  rw [hstore, hceiling, Device.mk.injEq]
  exact ⟨hproc.symm, rfl, List.append_nil _, hsigned⟩

/-! ## Events as actions of the device -/

/-- The key and the data of an answer that is a signature of an operation. -/
def signedPair : Nat × SignerRequest × SignerResponse → Option (PublicKeyHash × List UInt8)
  | (_, .sign (pkh, _) data _, .signature _) => some (pkh, data)
  | _ => none

variable [Bson]

/-- What a message does to the device: nothing, or what the sign request in it does. Where it is
answered with a signature, the device has noted it. -/
inductive Worked (cfg : SocketConfig) (io : RequestIo cfg.keys) (d d' : Device) :
    Option (SignerRequest × SignerResponse) → Prop
  | still (answer : Option (SignerRequest × SignerResponse)) :
      d' = d → (∀ i qr, answer = some qr → signedPair (i, qr) = none) → Worked cfg io d d' answer
  | signed (pkh : PublicKeyHash) (data : List UInt8)
      (answer : Option (SignerRequest × SignerResponse)) :
      d.step cfg.card (.sign io.seen (cfg.signIo io pkh data) pkh data) = some d' →
      (∀ i qr p, answer = some qr → signedPair (i, qr) = some p → d'.signed = p :: d.signed) →
      Worked cfg io d d' answer

omit [Bson] in
/-- An answer may be left out. -/
theorem Worked.unanswered {cfg : SocketConfig} {io : RequestIo cfg.keys} {d d' : Device}
    {answer : Option (SignerRequest × SignerResponse)} (h : Worked cfg io d d' answer) :
    Worked cfg io d d' none := by
  cases h with
  | still _ hd => exact .still _ hd fun _ _ h => by cases h
  | signed pkh data _ hd => exact .signed pkh data _ hd fun _ _ _ h => by cases h

omit [Blake3] [Base58] [BlsKeys] in
/-- A frame holds the response as it is encoded. -/
theorem encodeFrame_ok {resp : SignerResponse} {frame : List UInt8}
    (h : encodeFrame resp = .ok frame) :
    ∃ body, encodeResponse resp = .ok body ∧ body.length ≤ 65535 ∧
      frame = messageHeader.frame body := by
  unfold encodeFrame at h
  cases hbody : encodeResponse resp with
  | error e =>
    rw [hbody] at h
    cases h
  | ok body =>
    rw [hbody] at h
    change (if body.length ≤ 65535 then Except.ok (messageHeader.frame body) else _) = _ at h
    split at h
    · rename_i hlen
      cases h
      exact ⟨body, rfl, hlen, rfl⟩
    · cases h

/-- A response that a client can read as the answer to its request. -/
def Fits (req : SignerRequest) (resp : SignerResponse) : Prop :=
  Answers req resp ∧ ∀ keys, resp ≠ .authorizedKeys (some keys)

omit [Blake3] [Base58] [BlsKeys] [Bson] in
/-- An error answers any request. -/
theorem fits_error (req : SignerRequest) (msg : String) : Fits req (.error msg) :=
  ⟨by cases req <;> trivial, fun _ h => by cases h⟩

omit [Blake3] [BlsKeys] [Bson] in
/-- What is answered from a key answers the request it is made of. -/
theorem onKey_fits {req : SignerRequest} {pkh : PublicKeyHash}
    {answer : Unencrypted → Except SignerError SignerResponse} (s : Store)
    (h : ∀ k resp, answer k = .ok resp → Fits req resp) :
    Fits req (responseOf (cfg.onKey pkh answer s)) := by
  unfold onKey responseOf
  cases cfg.handler.resolveSigner pkh with
  | mk result callbacks =>
    cases result with
    | error e => exact fits_error req _
    | ok found =>
      dsimp only
      cases hanswer : answer found.1 with
      | error e => exact fits_error req _
      | ok resp => exact h _ _ hanswer

omit [Bson] in
/-- **Every request is answered in kind.** -/
theorem handleRequest_fits (io : RequestIo cfg.keys) (req : SignerRequest) (s : Store) :
    Fits req (responseOf (cfg.handleRequest io req s)) := by
  cases req with
  | sign pkh data sig =>
    simp only [handleRequest, handleSign, responseOf]
    cases hresult : (cfg.handler.handleSign io.seen (cfg.signIo io pkh.1 data) pkh.1 data
        s).result with
    | error e => exact fits_error _ _
    | ok v =>
      obtain ⟨signer, -, hsign⟩ := cfg.signData_of_ok hresult
      rw [hsign]
      exact ⟨trivial, fun _ h => by cases h⟩
  | publicKey | deterministicNonce | deterministicNonceHash | supportsDeterministicNonces =>
    refine cfg.onKey_fits s fun k resp h => ?_
    cases h
    exact ⟨trivial, fun _ h => by cases h⟩
  | authorizedKeys => exact ⟨trivial, fun _ h => by cases h⟩
  | knownKeys =>
    simp only [handleRequest, handleKnownKeys]
    split <;> exact ⟨trivial, fun _ h => by cases h⟩
  | blsProveRequest pkh overridePk =>
    simp only [handleRequest, handleBlsProve]
    split
    · refine cfg.onKey_fits s fun k resp h => ?_
      cases h
      exact ⟨trivial, fun _ h => by cases h⟩
    · exact fits_error _ _

/-- What goes out for a message is the frame of a response to the request in it. -/
theorem processRequest_ok {d d' : Device} {wm : HighWatermark} {io : RequestIo cfg.keys}
    {msg frame : List UInt8} {req : SignerRequest} {resp : SignerResponse}
    (h : cfg.processRequest io msg d wm = (d', .ok (req, resp, frame))) :
    decodeRequest msg = .ok req ∧ Fits req resp ∧ ∃ body, encodeResponse resp = .ok body ∧
      body.length ≤ 65535 ∧ frame = messageHeader.frame body := by
  unfold processRequest at h
  cases hdecode : decodeRequest msg with
  | error e =>
    rw [hdecode] at h
    cases h
  | ok req' =>
    rw [hdecode] at h
    dsimp only at h
    rw [Prod.mk.injEq] at h
    obtain ⟨-, h⟩ := h
    cases hframe : encodeFrame (responseOf (cfg.handleRequest io req' ⟨wm, d.disk⟩)) with
    | error e =>
      rw [hframe] at h
      cases h
    | ok frame' =>
      rw [hframe] at h
      cases h
      exact ⟨rfl, cfg.handleRequest_fits io _ _, encodeFrame_ok hframe⟩

/-- **A message is at most one action of the device.** -/
theorem processRequest_device {d : Device} {wm : HighWatermark} (hproc : d.proc = some wm)
    (io : RequestIo cfg.keys) (msg : List UInt8) :
    Worked cfg io d (cfg.processRequest io msg d wm).1
      ((cfg.processRequest io msg d wm).2.toOption.map fun r => (r.1, r.2.1)) := by
  unfold processRequest
  cases decodeRequest msg with
  | error e => exact .still _ rfl fun _ _ h => by cases h
  | ok req =>
    dsimp only
    -- the answer, where there is one, is the response to this request
    have hanswer : ∀ {qr : SignerRequest × SignerResponse} {reply : RequestReply},
        (((encodeFrame (responseOf reply)).map (req, responseOf reply, ·)).toOption.map
          fun r => (r.1, r.2.1)) = some qr → qr = (req, responseOf reply) := by
      intro qr reply h
      cases hframe : encodeFrame (responseOf reply) with
      | error e =>
        rw [hframe] at h
        cases h
      | ok frame =>
        rw [hframe] at h
        cases h
        rfl
    by_cases hreq : ∃ pkh data sig, req = .sign pkh data sig
    · obtain ⟨⟨pkh, version⟩, data, sig, rfl⟩ := hreq
      refine .signed pkh data _ (cfg.noted_sign hproc io (pkh, version) data sig) ?_
      rintro i qr p hqr hp
      rw [hanswer hqr] at hp
      simp only [noted]
      cases hresult : (cfg.handleRequest io (.sign (pkh, version) data sig)
          ⟨wm, d.disk⟩).result with
      | error e =>
        rw [responseOf, hresult] at hp
        cases hp
      | ok v =>
        rw [responseOf, hresult] at hp
        obtain ⟨resp, chainId⟩ := v
        cases resp with
        | signature sig' =>
          cases hp
          rfl
        | _ => cases hp
    · have hother : ∀ pkh data sig, req ≠ .sign pkh data sig := fun pkh data sig h =>
        hreq ⟨pkh, data, sig, h⟩
      refine .still _ (cfg.noted_other hproc io hother) fun i qr hqr => ?_
      rw [hanswer hqr]
      cases req with
      | sign pkh data sig => exact absurd rfl (hother pkh data sig)
      | _ => rfl

end SocketConfig

/-- Nobody confirms a level, and the files are not damaged but by a write that was cut short. -/
def SocketEvent.Unattended {cfg : SocketConfig} : SocketEvent cfg → Prop
  | .serve _ io =>
    io.write.Clean cfg.card.macKeys cfg.card.chainId ∧
      io.rollback.Clean cfg.card.macKeys cfg.card.chainId
  | .fire _ io => io.Clean cfg.card.macKeys cfg.card.chainId
  | .confirm .. => False
  | _ => True

namespace SocketServer

variable [Blst] [BlsKeys] [Bson] {cfg : SocketConfig} {s s' : SocketServer}

omit [Blake3] [Base58] [BlsKeys] [Bson] in
/-- A thread that moves on was where it moved on from. -/
theorem move_spec {i : Nat} {p q : Phase} (h : s.move i p q = some s') :
    ∃ c, s.conns[i]? = some c ∧ c.phase = p ∧
      s' = { s with conns := s.conns.set i { c with phase := q } } := by
  obtain ⟨c, hc, h⟩ := Option.bind_eq_some_iff.1 h
  split at h
  · rename_i hphase
    cases h
    exact ⟨c, hc, hphase, rfl⟩
  · cases h

omit [Blake3] [Base58] [BlsKeys] [Bson] in
/-- The guard that is dropped was the last thing its thread held. -/
theorem dropGuard_spec {i : Nat} (h : s.dropGuard i = some s') :
    ∃ c, s.conns[i]? = some c ∧ c.phase = .closed ∧
      s' = { s with
        counter := if c.generation = s.generation then s.counter - 1 else s.counter
        conns := s.conns.set i { c with phase := .ended } } := by
  obtain ⟨c, hc, h⟩ := Option.bind_eq_some_iff.1 h
  split at h
  · rename_i hphase
    cases h
    exact ⟨c, hc, hphase, rfl⟩
  · cases h

/-- One round of the loop: a message that is refused or not answered whole ends it, and one that is
answered is taken off, with its response behind what was sent before. -/
inductive Served (cfg : SocketConfig) (io : RequestIo cfg.keys) (s : SocketServer) (i : Nat)
    (c : Conn) : SocketServer → Prop
  | refused (e : SocketError) : arrival cfg.maxMessageSize c.inbox = .refused e →
      Served cfg io s i c { s with conns := s.conns.set i { c with phase := .left } }
  | unanswered (d : Device) (cut : List UInt8) :
      SocketConfig.Worked cfg io s.device d none →
      messageHeader.unframe cut = ([], cut) →
      Served cfg io s i c { s with
        device := d
        conns := s.conns.set i { c with phase := .left, outbox := c.outbox ++ cut } }
  | answered (msg rest body : List UInt8) (d : Device) (req : SignerRequest)
      (resp : SignerResponse) : arrival cfg.maxMessageSize c.inbox = .message msg rest →
      decodeRequest msg = .ok req → SocketConfig.Fits req resp →
      encodeResponse resp = .ok body → body.length ≤ 65535 →
      SocketConfig.Worked cfg io s.device d (some (req, resp)) →
      Served cfg io s i c { s with
        device := d
        conns := s.conns.set i
          { c with inbox := rest, outbox := c.outbox ++ messageHeader.frame body }
        transcript := (i, req, resp) :: s.transcript }

/-- **One round of the loop**, on a device that runs. -/
theorem serve_spec {i : Nat} {c : Conn} {io : RequestIo cfg.keys} {wm : HighWatermark}
    (hproc : s.device.proc = some wm) (h : s.serve cfg i c io wm = some s') :
    Served cfg io s i c s' := by
  unfold serve at h
  cases harrival : arrival cfg.maxMessageSize c.inbox with
  | pending =>
    rw [harrival] at h
    cases h
  | refused e =>
    rw [harrival] at h
    cases h
    exact .refused e harrival
  | message msg rest =>
    rw [harrival] at h
    dsimp only at h
    have hworked := cfg.processRequest_device hproc io msg
    rcases hprocess : cfg.processRequest io msg s.device wm with ⟨d, result⟩
    rw [hprocess] at h hworked
    cases result with
    | error e =>
      cases h
      have hserved := Served.unanswered (i := i) (c := c) d [] hworked
        messageHeader.unframe_nil
      rwa [List.append_nil] at hserved
    | ok r =>
      obtain ⟨req, resp, frame⟩ := r
      obtain ⟨hreq, hfits, body, hbody, hlen, rfl⟩ := cfg.processRequest_ok hprocess
      cases hsent : io.sent with
      | none =>
        rw [hsent] at h
        cases h
        exact .answered msg rest body d req resp harrival hreq hfits hbody hlen hworked
      | some n =>
        rw [hsent] at h
        cases h
        refine .unanswered d _ hworked.unanswered ?_
        -- a write that fails leaves part of the frame behind
        rw [List.dropLast_eq_take, List.take_take]
        refine messageHeader.unframe_take hlen ?_
        rw [messageHeader.length_frame]
        show min n (2 + body.length - 1) < 2 + body.length
        omega

/-- What the device does in an event: nothing, or one action of it. An answer that is a signature
was noted by it. -/
inductive DeviceEffect (cfg : SocketConfig) (s s' : SocketServer) : Prop
  | still : s'.device = s.device → s'.transcript = s.transcript → DeviceEffect cfg s s'
  | acted (a : Action) : a.Unattended cfg.card → s.device.step cfg.card a = some s'.device →
      s'.transcript = s.transcript → DeviceEffect cfg s s'
  | answered (i : Nat) (qr : SignerRequest × SignerResponse) : s'.device = s.device →
      SocketConfig.signedPair (i, qr) = none → s'.transcript = (i, qr) :: s.transcript →
      DeviceEffect cfg s s'
  | signed (a : Action) (i : Nat) (qr : SignerRequest × SignerResponse) :
      a.Unattended cfg.card → s.device.step cfg.card a = some s'.device →
      (∀ p, SocketConfig.signedPair (i, qr) = some p → s'.device.signed = p :: s.device.signed) →
      s'.transcript = (i, qr) :: s.transcript → DeviceEffect cfg s s'

omit [Bson] in
/-- A sign request that is taken is an unattended action: the key that is held signs, and one that
is not held is refused whatever it would answer. -/
theorem unattended_sign {d d' : Device} {io : RequestIo cfg.keys} {pkh : PublicKeyHash}
    {data : List UInt8}
    (hclean : io.write.Clean cfg.card.macKeys cfg.card.chainId ∧
      io.rollback.Clean cfg.card.macKeys cfg.card.chainId)
    (h : d.step cfg.card (.sign io.seen (cfg.signIo io pkh data) pkh data) = some d') :
    ∃ a : Action, a.Unattended cfg.card ∧ d.step cfg.card a = some d' := by
  cases hlookup : cfg.keys.signers.lookup pkh with
  | some signer =>
    refine ⟨.sign io.seen (cfg.signIo io pkh data) pkh data,
      ⟨hclean, Blst.sigToBytes (Bls.sign signer.secretKey data none), ?_⟩, h⟩
    rw [SocketConfig.signIo, SocketConfig.signData, hlookup]
    rfl
  | none =>
    have hunheld := fun s => (cfg.handler.handleSign_unheld hlookup io.seen
      (cfg.signIo io pkh data) { cfg.signIo io pkh data with sign := .ok (zeros 96) } data s).1
    refine ⟨.sign io.seen { cfg.signIo io pkh data with sign := .ok (zeros 96) } pkh data,
      ⟨hclean, _, rfl⟩, ?_⟩
    rw [← h, Device.step, Device.step]
    simp only [hunheld]

/-- A message is an effect on the device, with the answer it is given. -/
theorem Served.effect {i : Nat} {c : Conn} {io : RequestIo cfg.keys}
    (hclean : io.write.Clean cfg.card.macKeys cfg.card.chainId ∧
      io.rollback.Clean cfg.card.macKeys cfg.card.chainId)
    (h : Served cfg io s i c s') : DeviceEffect cfg s s' := by
  cases h with
  | refused e => exact .still rfl rfl
  | unanswered d cut hworked =>
    cases hworked with
    | still _ hd => exact .still hd rfl
    | signed pkh data _ hd =>
      obtain ⟨a, ha, hd⟩ := unattended_sign hclean hd
      exact .acted a ha hd rfl
  | answered msg rest body d req resp _ _ _ _ _ hworked =>
    cases hworked with
    | still _ hd hnone => exact .answered i (req, resp) hd (hnone i _ rfl) rfl
    | signed pkh data _ hd hnoted =>
      obtain ⟨a, ha, hd⟩ := unattended_sign hclean hd
      exact .signed a i (req, resp) ha hd (fun p hp => hnoted i _ p rfl hp) rfl

/-- **An event, as the device sees it.** -/
theorem step_effect {e : SocketEvent cfg} (he : e.Unattended) (h : s.step cfg e = some s') :
    DeviceEffect cfg s s' := by
  cases e with
  | accept =>
    obtain ⟨wm, -, h⟩ := Option.map_eq_some_iff.1 h
    split at h <;> cases h <;> exact .still rfl rfl
  | acceptFailed =>
    cases h
    exact .still rfl rfl
  | configure | opened | hangUp | complete | completed =>
    obtain ⟨c, -, -, rfl⟩ := move_spec h
    exact .still rfl rfl
  | receive i bytes =>
    obtain ⟨c, -, rfl⟩ := Option.map_eq_some_iff.1 h
    exact .still rfl rfl
  | serve i io =>
    obtain ⟨c, -, h⟩ := Option.bind_eq_some_iff.1 h
    obtain ⟨wm, hproc, h⟩ := Option.bind_eq_some_iff.1 h
    split at h
    · exact (serve_spec hproc h).effect he
    · cases h
  | drop i =>
    obtain ⟨c, -, -, rfl⟩ := dropGuard_spec h
    exact .still rfl rfl
  | fire i io =>
    obtain ⟨d, hd, rfl⟩ := Option.map_eq_some_iff.1 h
    exact .acted (.fire i io) ⟨he, trivial⟩ hd rfl
  | confirm => cases he
  | restart io =>
    rw [step, Option.map_eq_some_iff] at h
    obtain ⟨d, hd, rfl⟩ := h
    exact .acted (.restart io) ⟨trivial, trivial⟩ hd rfl

/-! ## Runs -/

/-- What holds between two events: the slots of the device are safe, and what went out as a
signature was noted as one. -/
structure Guarded (cfg : SocketConfig) (s : SocketServer) : Prop where
  wf : s.device.Wf cfg.card
  safe : ∀ k t, Safe (s.device.slot cfg.card k t)
  sent : (s.transcript.filterMap SocketConfig.signedPair).Sublist s.device.signed

omit [Blst] [BlsKeys] [Bson] in
/-- The log of the device only grows. -/
theorem signed_suffix {card : Card} {d d' : Device} {a : Action}
    (h : d.step card a = some d') : d.signed <:+ d'.signed := by
  cases a with
  | sign seen io pkh data =>
    obtain ⟨wm, -, rfl⟩ := Option.map_eq_some_iff.1 h
    dsimp only
    split
    · exact List.suffix_cons _ _
    · exact List.suffix_refl _
  | fire i io =>
    obtain ⟨wm, -, h⟩ := Option.bind_eq_some_iff.1 h
    obtain ⟨task, -, rfl⟩ := Option.map_eq_some_iff.1 h
    exact List.suffix_refl _
  | confirm fault ios chainId pkh level =>
    obtain ⟨wm, -, rfl⟩ := Option.map_eq_some_iff.1 h
    exact List.suffix_refl _
  | restart io =>
    cases h
    exact List.suffix_refl _

omit [Bson] [BlsKeys] in
/-- An unattended action of the device keeps its part of it. -/
theorem Guarded.acted (h : s.Guarded cfg) {a : Action} (ha : a.Unattended cfg.card)
    (hstep : s.device.step cfg.card a = some s'.device)
    (hsent : (s'.transcript.filterMap SocketConfig.signedPair).Sublist s'.device.signed) :
    s'.Guarded cfg := by
  have hrun : Automaton.run (Device.step cfg.card) s.device [a] = some s'.device :=
    Automaton.run_cons.2 ⟨_, hstep, rfl⟩
  have hall : ∀ b ∈ [a], b.Unattended cfg.card := fun b hb => List.mem_singleton.1 hb ▸ ha
  exact ⟨(Device.unattended_steps h.wf ha hstep).1,
    fun k t => Device.run_safe h.wf (h.safe k t) hall hrun, hsent⟩

/-- **One event** keeps it. -/
theorem Guarded.step (h : s.Guarded cfg) {e : SocketEvent cfg} (he : e.Unattended)
    (hstep : s.step cfg e = some s') : s'.Guarded cfg := by
  cases step_effect he hstep with
  | still hd ht =>
    refine ⟨hd ▸ h.wf, fun k t => hd ▸ h.safe k t, ?_⟩
    rw [hd, ht]
    exact h.sent
  | acted a ha hd ht =>
    refine h.acted ha hd ?_
    rw [ht]
    exact h.sent.trans (signed_suffix hd).sublist
  | answered i qr hd hnone ht =>
    refine ⟨hd ▸ h.wf, fun k t => hd ▸ h.safe k t, ?_⟩
    rw [hd, ht, List.filterMap_cons_none hnone]
    exact h.sent
  | signed a i qr ha hd hnoted ht =>
    refine h.acted ha hd ?_
    rw [ht]
    cases hpair : SocketConfig.signedPair (i, qr) with
    | none =>
      rw [List.filterMap_cons_none hpair]
      exact h.sent.trans (signed_suffix hd).sublist
    | some p =>
      rw [List.filterMap_cons_some hpair, hnoted p hpair]
      exact h.sent.cons_cons p

omit [Blake3] [Base58] [BlsKeys] [Bson] in
/-- What went out for a key and operation type is what was signed of it. -/
theorem delivered_eq (s : SocketServer) (k : PublicKeyHash) (t : OperationType) :
    s.delivered k t = (s.transcript.filterMap SocketConfig.signedPair).filterMap
      fun (pkh, data) =>
        (markOf data).bind fun (t', x) => if pkh = k ∧ t' = t then some x else none := by
  rw [List.filterMap_filterMap]
  refine List.filterMap_congr fun qr _ => ?_
  rcases qr with ⟨i, req, resp⟩
  cases req with
  | sign pkh data sig => cases resp <;> rfl
  | _ => rfl

/-- **No double signing, on the wire.** From a start on any disk, over any run that no operator
intervenes in, whatever the clients send on however many connections, the entries whose signatures
were sent for a key and operation type strictly increase (the latest first). -/
theorem delivered_increases (cfg : SocketConfig) (io : LoadIo) (disk : Disk)
    (events : List (SocketEvent cfg)) (s : SocketServer) (hevents : ∀ e ∈ events, e.Unattended)
    (hrun : Automaton.run (step cfg) (start (Device.boot cfg.card io disk [])) events = some s)
    (k : PublicKeyHash) (t : OperationType) : (s.delivered k t).Pairwise (· > ·) := by
  have hstart : (start (Device.boot cfg.card io disk [])).Guarded cfg :=
    ⟨Device.boot_wf cfg.card io disk [], Device.boot_safe cfg.card io disk, List.Sublist.refl _⟩
  have hkeep : ∀ (a : SocketServer) (e : SocketEvent cfg) (b : SocketServer), a.Guarded cfg →
      e.Unattended → step cfg a e = some b → b.Guarded cfg :=
    fun _ _ _ hguarded he hstep => hguarded.step he hstep
  have hguarded : s.Guarded cfg :=
    Automaton.run_invariant hkeep hstart (Automaton.along_of_forall _ hevents) hrun
  rw [delivered_eq]
  exact (hguarded.safe k t).sorted.sublist (hguarded.sent.filterMap _)

end SocketServer

end

/-! ## Two clients -/

/-- The point that spells some bytes. -/
def spelled (n : Nat) (bytes : List UInt8) : Compressed n :=
  ⟨padTo (n + 1) (0x80 :: bytes), show (0x80 : UInt8) ≤ 0x80 by decide⟩

/-- Keys whose signature spells the key and the message. -/
@[reducible] def plainBlsKeys : @BlsKeys plainBlst :=
  @BlsKeys.mk plainBlst (fun sk => spelled 47 sk.1) (fun sk msg _ => spelled 95 (sk.1 ++ msg))
    (fun key msg => padTo 32 (key.1.take 8 ++ msg)) fun data => padTo 32 data

section
attribute [local instance] plainBlake3 plainBase58 plainBlst plainBlsKeys plainBson

/-- The server of a card with one key. -/
def testSocketConfig : SocketConfig := .ofSigner (testCard [testKey 1] 10)

/-- Nothing fails during a request, which sees every mark at a level. -/
def RequestIo.quiet (level : UInt32) : RequestIo testSocketConfig.keys where
  seen := testWatermark [testKey 1] level
  load := none
  write := .done
  rollback := .done
  order := ⟨_, List.Perm.refl _, _, List.Perm.refl _⟩
  sent := none

/-- What a client sends that asks for an attestation. -/
def attestationFrame (level round : UInt32) : List UInt8 :=
  messageHeader.frame (wire (.sign (testKey 1, 2)
    (createAttestationDataWithChain testChainBytes level round) none))

/-- Two clients ask by turns: the one that is late is refused. -/
def twoClients : List (SocketEvent testSocketConfig) :=
  [.accept, .accept, .configure 0 true, .configure 1 true, .opened 0, .opened 1,
    .receive 0 (attestationFrame 101 0 ++ attestationFrame 103 0),
    .receive 1 (attestationFrame 102 0), .serve 0 (.quiet 100), .serve 0 (.quiet 100),
    .serve 1 (.quiet 100), .receive 1 (attestationFrame 103 1), .serve 1 (.quiet 100)]

/-- What the two were sent, and its order. -/
theorem delivered_increases_twoClients : ∃ s,
    Automaton.run (SocketServer.step testSocketConfig)
        (.start (.boot testSocketConfig.card LoadIo.quiet (testDisk [testKey 1] 100) []))
        twoClients = some s ∧
      s.delivered (testKey 1) .attestation = [⟨103, 1⟩, ⟨103, 0⟩, ⟨101, 0⟩] ∧
      (s.delivered (testKey 1) .attestation).Pairwise (· > ·) := by
  have hsent : (Automaton.run (SocketServer.step testSocketConfig)
      (.start (.boot testSocketConfig.card LoadIo.quiet (testDisk [testKey 1] 100) []))
      twoClients).map (·.delivered (testKey 1) .attestation) =
        some [⟨103, 1⟩, ⟨103, 0⟩, ⟨101, 0⟩] := by
    decide +kernel
  obtain ⟨s, hrun, hdelivered⟩ := Option.map_eq_some_iff.1 hsent
  have hdone : WriteIo.Clean testSocketConfig.card.macKeys testSocketConfig.card.chainId .done :=
    fun _ _ _ _ h => by cases h
  have hquiet : ∀ i level,
      (.serve i (.quiet level) : SocketEvent testSocketConfig).Unattended :=
    fun _ _ => And.intro hdone hdone
  refine ⟨s, hrun, hdelivered, SocketServer.delivered_increases _ _ _ _ s ?_ hrun _ _⟩
  intro e he
  simp only [twoClients, List.mem_cons, List.not_mem_nil, or_false] at he
  rcases he with rfl | rfl | rfl | rfl | rfl | rfl | rfl | rfl | rfl | rfl | rfl | rfl | rfl
  all_goals first | exact trivial | exact hquiet _ _

end

end Russignol
