import Russignol.Signer.Protocol

/-!
# The codec, read back

What each decoder of `Protocol` reads is a language (`Reads`), that of its encoder, except at the
two places where the protocol leaves something out: an absent signature is the end of the input,
and a request ends where its last field does. `decodeRequest_eq_ok` is the resulting reading of a
request: its encoding, then any bytes, none after an absent signature. A response is read back by
the request it answers, the list of authorised keys excepted, whose union tag is read as the tag
of an option.
-/

namespace Russignol

open Bytes Reader

namespace SignerRequest

variable [Blst]

/-- The payload a request carries. -/
def payload : SignerRequest → List UInt8
  | .sign _ data _ | .deterministicNonce _ data _ | .deterministicNonceHash _ data _ => data
  | _ => []

/-- A request whose signature is absent, so that its encoding ends before its last field. -/
def OmitsSignature : SignerRequest → Prop
  | .sign _ _ sig | .deterministicNonce _ _ sig | .deterministicNonceHash _ _ sig => sig = none
  | _ => False

end SignerRequest

namespace Encoding

/-! ## Primitives -/

/-- A byte is read as it is written. -/
theorem readU8_reads : Reads readU8 (fun _ => True) fun b => [b] := .next _

/-- A word is read back from its four bytes. -/
theorem readU32Be_reads : Reads readU32Be (fun _ => True) be32 := by
  constructor
  intro s rest x
  have hread : Reads (readExact ProtocolError.unexpectedEof 4 : Decoder (Fixed 4)) _ _ :=
    .readExact _ 4
  unfold readU32Be
  simp only [run_bind_ok, run_pure_ok]
  constructor
  · rintro ⟨buf, mid, hbuf, rfl, rfl⟩
    obtain ⟨-, rfl⟩ := hread.eq_enc hbuf
    obtain ⟨l, hl⟩ := buf
    match l, hl with
    | [a, b, c, d], _ =>
      refine ⟨trivial, ?_⟩
      show [a, b, c, d] ++ mid = be32 (ofBe32 a b c d) ++ mid
      rw [be32_ofBe32]
  · rintro ⟨-, rfl⟩
    exact ⟨⟨be32 x, rfl⟩, rest, hread.run_enc (a := ⟨be32 x, rfl⟩) trivial rest, ofBe32_be32 x, rfl⟩

/-- The twenty bytes of a hash are its own encoding. -/
theorem hash_inverse (bytes : Fixed 20) (k : PublicKeyHash) :
    (PublicKeyHash.fromBytes bytes.1).mapError ProtocolError.pkhDecodeError = .ok k ↔
      bytes = k.hash := by
  have hlen := bytes.2
  simp only [PublicKeyHash.fromBytes, hlen, dite_true, Except.mapError]
  constructor
  · intro h
    cases h
    rfl
  · rintro rfl
    rfl

/-- A hash without version is read as it is written. -/
theorem decodeRawPkh_reads : Reads decodeRawPkh (fun _ => True) encodeRawPkh := by
  refine readU8_reads.header (a := 3) trivial ((Reads.readExact _ 20).except hash_inverse) ?_
  intro tag htag s k rest
  split
  · exact absurd rfl htag
  · exact run_throw_ok

/-- A hash with its version is read as it is written. -/
theorem decodeVersionedPkh_reads :
    Reads decodeVersionedPkh (fun _ => True) encodeVersionedPkh := by
  have hfields : Reads (do
      let pkh ← decodeRawPkh
      let version ← readU8
      return (pkh, version) : Decoder VersionedPublicKeyHash) (fun _ => True)
      fun p => encodeRawPkh p.1 ++ [p.2] :=
    (decodeRawPkh_reads.seq readU8_reads).congr (by simp) fun _ _ => rfl
  refine readU8_reads.header (a := 3) trivial hfields ?_
  intro tag htag s k rest
  rw [if_pos htag]
  exact run_throw_ok

/-- Bytes under their length are read back when the length is within the bound. -/
theorem decodeBytes_reads : Reads decodeBytes (fun data => data.length ≤ maxDataLen)
    fun data => be32 (UInt32.ofNat data.length) ++ data := by
  constructor
  intro s rest data
  unfold decodeBytes
  rw [run_bind_ok]
  constructor
  · rintro ⟨len, mid, hlen, hdata⟩
    obtain ⟨-, rfl⟩ := readU32Be_reads.eq_enc hlen
    split at hdata
    · exact absurd hdata run_throw_ok
    · rename_i hle
      simp only [run_bind_ok, run_pure_ok] at hdata
      obtain ⟨buf, mid', hbuf, rfl, rfl⟩ := hdata
      obtain ⟨-, rfl⟩ := (Reads.readExact _ len.toNat).eq_enc hbuf
      rw [buf.2, UInt32.ofNat_toNat, List.append_assoc]
      exact ⟨Nat.not_lt.1 hle, rfl⟩
  · rintro ⟨hle, rfl⟩
    have htoNat : (UInt32.ofNat data.length).toNat = data.length := by
      rw [UInt32.toNat_ofNat']
      exact Nat.mod_eq_of_lt (by simp only [maxDataLen] at hle; omega)
    refine ⟨UInt32.ofNat data.length, data ++ rest, ?_, ?_⟩
    · rw [List.append_assoc]
      exact readU32Be_reads.run_enc trivial _
    · rw [htoNat, if_neg (Nat.not_lt.2 hle)]
      simp only [run_bind_ok, run_pure_ok]
      exact ⟨⟨data, rfl⟩, rest, (Reads.readExact _ data.length).run_enc (a := ⟨data, rfl⟩) trivial
        rest, rfl, rfl⟩

section
variable [Blst] [LawfulBlst]

/-- The bytes of a public key are the encoding of one key at most. -/
theorem pk_inverse (bytes : Fixed 48) (p : PublicKey) :
    (PublicKey.fromBytes bytes.1).mapError ProtocolError.pkDecodeError = .ok p ↔
      bytes = Blst.pkToBytes p := by
  rw [← LawfulBlst.pk_inverse, PublicKey.fromBytes, if_pos bytes.2]
  cases Blst.pkFromBytes bytes.1 <;> simp [Except.mapError]

/-- The bytes of a signature are the encoding of one signature at most. -/
theorem sig_inverse (bytes : Fixed 96) (s : BlsSignature) :
    (BlsSignature.fromBytes bytes.1).mapError ProtocolError.signatureDecodeError = .ok s ↔
      bytes = Blst.sigToBytes s := by
  rw [← LawfulBlst.sig_inverse, BlsSignature.fromBytes, if_pos bytes.2]
  cases Blst.sigFromBytes bytes.1 <;> simp [Except.mapError]

/-- A public key is read as it is written. -/
theorem decodePk_reads : Reads decodePk (fun _ => True) encodePk := by
  refine readU8_reads.header (a := 3) trivial ((Reads.readExact _ 48).except pk_inverse) ?_
  intro tag htag s k rest
  rw [if_pos htag]
  exact run_throw_ok

/-- A signature is read as it is written. -/
theorem decodeSignature_reads : Reads decodeSignature (fun _ => True) encodeSignature :=
  (Reads.readExact _ 96).except sig_inverse

/-- The optional key is read back; its tag says whether it is there. -/
theorem decodeOptionPk_reads : Reads decodeOptionPk (fun _ => True) encodeOptionPk := by
  constructor
  intro s rest pk
  unfold decodeOptionPk
  rw [run_bind_ok]
  constructor
  · rintro ⟨tag, mid, htag, hpk⟩
    obtain ⟨-, rfl⟩ := readU8_reads.eq_enc htag
    split at hpk
    · simp only [run_bind_ok, run_pure_ok] at hpk
      obtain ⟨p, mid', hp, rfl, rfl⟩ := hpk
      obtain ⟨-, rfl⟩ := decodePk_reads.eq_enc hp
      exact ⟨trivial, rfl⟩
    · obtain ⟨rfl, rfl⟩ := run_pure_ok.1 hpk
      exact ⟨trivial, rfl⟩
    · exact absurd hpk run_throw_ok
  · rintro ⟨-, rfl⟩
    cases pk with
    | some p =>
      refine ⟨0xFF, encodePk p ++ rest, rfl, ?_⟩
      simp only [run_bind_ok, run_pure_ok]
      exact ⟨p, rest, decodePk_reads.run_enc trivial rest, rfl, rfl⟩
    | none => exact ⟨0x00, rest, rfl, rfl⟩

/-- The optional signature is read back, an absent one only at the end of the input. -/
theorem decodeOptionSignature_run {s rest : List UInt8} {sig : Option BlsSignature} :
    decodeOptionSignature.run s = .ok (sig, rest) ↔
      s = encodeOptionSignature sig ++ rest ∧ (sig = none → rest = []) := by
  constructor
  · intro h
    cases s with
    | nil =>
      cases h
      exact ⟨rfl, fun _ => rfl⟩
    | cons b s =>
      simp only [decodeOptionSignature, StateT.run] at h
      split at h
      · rename_i hb
        obtain ⟨sg, mid, hsg, hrest⟩ := run_bind_ok.1 h
        obtain ⟨rfl, rfl⟩ := run_pure_ok.1 hrest
        obtain ⟨-, rfl⟩ := decodeSignature_reads.eq_enc hsg
        subst hb
        exact ⟨rfl, fun hnone => by cases hnone⟩
      · cases h
  · rintro ⟨rfl, hend⟩
    cases sig with
    | none =>
      rw [hend rfl]
      rfl
    | some sg =>
      show (do return some (← decodeSignature) : Decoder _).run (encodeSignature sg ++ rest) = _
      exact run_bind_ok.2 ⟨sg, rest, decodeSignature_reads.run_enc trivial rest, rfl⟩

/-! ## Requests -/

/-- The fields of a request that carries data, when the payload's length fits its prefix. -/
def dataWire (pkh : VersionedPublicKeyHash) (data : List UInt8) (sig : Option BlsSignature) :
    List UInt8 :=
  encodeVersionedPkh pkh ++ (be32 (UInt32.ofNat data.length) ++ data ++ encodeOptionSignature sig)

omit [LawfulBlst] in
/-- The payload of a request to sign is encoded with its length in two bytes, if it fits. -/
theorem encodeData_eq {data : List UInt8} (hdata : data.length ≤ maxDataLen)
    (pkh : VersionedPublicKeyHash) (sig : Option BlsSignature) :
    encodeData pkh data sig = .ok (dataWire pkh data sig) := by
  have hlt : data.length < 2 ^ 32 := by
    simp only [maxDataLen] at hdata
    omega
  simp only [encodeData, encodeBytes, if_pos hlt, dataWire]
  rfl

/-- What is decoded of a request to sign is what its wire form says, and an authentication follows
to the end. -/
theorem decodeData_run
    {make : VersionedPublicKeyHash → List UInt8 → Option BlsSignature → SignerRequest}
    {s rest : List UInt8} {r : SignerRequest} :
    (decodeData make).run s = .ok (r, rest) ↔
      ∃ pkh data sig, make pkh data sig = r ∧ data.length ≤ maxDataLen ∧
        s = dataWire pkh data sig ++ rest ∧ (sig = none → rest = []) := by
  unfold decodeData
  simp only [run_bind_ok, run_pure_ok]
  constructor
  · rintro ⟨pkh, mid, hpkh, data, mid', hdata, sig, mid'', hsig, rfl, rfl⟩
    obtain ⟨-, rfl⟩ := decodeVersionedPkh_reads.eq_enc hpkh
    obtain ⟨hle, rfl⟩ := decodeBytes_reads.eq_enc hdata
    obtain ⟨rfl, hend⟩ := decodeOptionSignature_run.1 hsig
    exact ⟨pkh, data, sig, rfl, hle, by simp only [dataWire, List.append_assoc], hend⟩
  · rintro ⟨pkh, data, sig, rfl, hle, rfl, hend⟩
    simp only [dataWire, List.append_assoc]
    refine ⟨pkh, _, decodeVersionedPkh_reads.run_enc trivial _, data, _, ?_, sig, rest,
      decodeOptionSignature_run.2 ⟨rfl, hend⟩, rfl, rfl⟩
    rw [← List.append_assoc]
    exact decodeBytes_reads.run_enc hle _

/-- The encoding of a request whose payload fits its prefix. -/
def wire (r : SignerRequest) : List UInt8 :=
  r.tag :: match r with
    | .sign pkh data sig
    | .deterministicNonce pkh data sig
    | .deterministicNonceHash pkh data sig => dataWire pkh data sig
    | .publicKey pkh | .supportsDeterministicNonces pkh => encodeRawPkh pkh
    | .authorizedKeys | .knownKeys => []
    | .blsProveRequest pkh overridePk => encodeRawPkh pkh ++ encodeOptionPk overridePk

omit [LawfulBlst] in
/-- A request whose payload fits is encoded as its wire form. -/
theorem encodeRequest_eq {r : SignerRequest} (h : r.payload.length ≤ maxDataLen) :
    encodeRequest r = .ok (wire r) := by
  cases r with
  | sign pkh data sig
  | deterministicNonce pkh data sig
  | deterministicNonceHash pkh data sig =>
    have hdata : encodeData pkh data sig = .ok (dataWire pkh data sig) := encodeData_eq h pkh sig
    simp only [encodeRequest, hdata]
    rfl
  | publicKey | authorizedKeys | supportsDeterministicNonces | knownKeys | blsProveRequest => rfl

/-- What `decode_request` reads: the encoding of a request, at the end of the input when it omits
its signature. -/
theorem decodeRequestAt_run {s rest : List UInt8} {r : SignerRequest} :
    decodeRequestAt.run s = .ok (r, rest) ↔
      r.payload.length ≤ maxDataLen ∧ s = wire r ++ rest ∧ (r.OmitsSignature → rest = []) := by
  unfold decodeRequestAt
  rw [run_bind_ok]
  constructor
  · rintro ⟨tag, mid, htag, hr⟩
    obtain ⟨-, rfl⟩ := readU8_reads.eq_enc htag
    split at hr
    case h_1 | h_4 | h_5 =>
      obtain ⟨pkh, data, sig, rfl, hle, rfl, hend⟩ := decodeData_run.1 hr
      exact ⟨hle, rfl, hend⟩
    case h_2 | h_6 =>
      obtain ⟨pkh, mid', hpkh, hr⟩ := run_bind_ok.1 hr
      obtain ⟨rfl, rfl⟩ := run_pure_ok.1 hr
      obtain ⟨-, rfl⟩ := decodeRawPkh_reads.eq_enc hpkh
      exact ⟨Nat.zero_le _, rfl, False.elim⟩
    case h_3 | h_7 =>
      obtain ⟨rfl, rfl⟩ := run_pure_ok.1 hr
      exact ⟨Nat.zero_le _, rfl, False.elim⟩
    case h_8 =>
      simp only [run_bind_ok, run_pure_ok] at hr
      obtain ⟨pkh, mid', hpkh, pk, mid'', hpk, rfl, rfl⟩ := hr
      obtain ⟨-, rfl⟩ := decodeRawPkh_reads.eq_enc hpkh
      obtain ⟨-, rfl⟩ := decodeOptionPk_reads.eq_enc hpk
      exact ⟨Nat.zero_le _, by simp [wire, SignerRequest.tag], False.elim⟩
    case h_9 => exact absurd hr run_throw_ok
  · rintro ⟨hle, rfl, hend⟩
    refine ⟨r.tag, _, readU8_reads.run_enc trivial _, ?_⟩
    cases r with
    | sign pkh data sig
    | deterministicNonce pkh data sig
    | deterministicNonceHash pkh data sig =>
      exact decodeData_run.2 ⟨pkh, data, sig, rfl, hle, rfl, hend⟩
    | publicKey pkh
    | supportsDeterministicNonces pkh =>
      exact run_bind_ok.2 ⟨pkh, rest, decodeRawPkh_reads.run_enc trivial rest, rfl⟩
    | authorizedKeys | knownKeys => rfl
    | blsProveRequest pkh pk =>
      show (do
        let pkh ← decodeRawPkh
        let overridePk ← decodeOptionPk
        return .blsProveRequest pkh overridePk : Decoder SignerRequest).run
          (encodeRawPkh pkh ++ encodeOptionPk pk ++ rest) = _
      rw [List.append_assoc, run_bind_ok]
      refine ⟨pkh, _, decodeRawPkh_reads.run_enc trivial _, run_bind_ok.2 ⟨pk, rest, ?_, rfl⟩⟩
      exact decodeOptionPk_reads.run_enc trivial rest

/-- A request whose payload fits in a frame is decoded from its encoding. -/
theorem decodeRequest_encodeRequest (r : SignerRequest) (h : r.payload.length ≤ 65535) :
    (encodeRequest r).bind decodeRequest = .ok r := by
  rw [encodeRequest_eq h]
  exact run'_ok.2 ⟨[], decodeRequestAt_run.2 ⟨h, (List.append_nil _).symm, fun _ => rfl⟩⟩

end

section
attribute [local instance] plainBlst plainBlst_lawful

/-- A request that carries a signature. -/
def signedRequest : SignerRequest := .sign (⟨zeros 20⟩, 2) [0x11, 0x00] (some (infinity 95))

/-- A request with a payload and an authentication comes back. -/
theorem decodeRequest_encodeRequest_signed :
    signedRequest.payload.length ≤ 65535 ∧
      (encodeRequest signedRequest).bind decodeRequest = .ok signedRequest :=
  ⟨by decide, decodeRequest_encodeRequest signedRequest (by decide)⟩

end

section
variable [Blst] [LawfulBlst]

/-- A byte string is accepted as a request exactly when it is the request's encoding, followed by
anything unless the request omits its signature, and the payload is within the bound. -/
theorem decodeRequest_eq_ok (b : List UInt8) (r : SignerRequest) :
    decodeRequest b = .ok r ↔ r.payload.length ≤ 65535 ∧
      ∃ msg rest, encodeRequest r = .ok msg ∧ b = msg ++ rest ∧
        (r.OmitsSignature → rest = []) := by
  have hdecode : decodeRequest b = .ok r ↔ _ := run'_ok
  simp only [hdecode, decodeRequestAt_run]
  constructor
  · rintro ⟨rest, hle, rfl, hend⟩
    exact ⟨hle, wire r, rest, encodeRequest_eq hle, rfl, hend⟩
  · rintro ⟨hle, msg, rest, hmsg, rfl, hend⟩
    rw [encodeRequest_eq hle] at hmsg
    cases hmsg
    exact ⟨rest, hle, rfl, hend⟩

end

section
attribute [local instance] plainBlst plainBlst_lawful

/-- The wire form of that request is decoded. -/
theorem decodeRequest_eq_ok_signed :
    decodeRequest (wire signedRequest) = .ok signedRequest :=
  (decodeRequest_eq_ok (wire signedRequest) signedRequest).2
    ⟨by decide, wire signedRequest, [], encodeRequest_eq (by decide), (List.append_nil _).symm,
      fun _ => rfl⟩

/-- A byte after a request that has no field left is ignored. -/
theorem knownKeys_trailing_byte : ¬ ∀ [Blst] [LawfulBlst] (b : List UInt8) (r : SignerRequest),
    decodeRequest b = .ok r → encodeRequest r = .ok b := by
  intro h
  have hok : encodeRequest .knownKeys = .ok [0x06, 0x00] := h [0x06, 0x00] .knownKeys rfl
  cases hok

end

/-! ## Responses -/

/-- The loop over a list of keys reads as many as its size in bytes says. -/
theorem decodePkhLoop_run (list : List PublicKeyHash) (bytesRead : Nat) (rest : List UInt8) :
    (decodePkhLoop (bytesRead + list.length * 21) bytesRead).run
      (list.flatMap encodeRawPkh ++ rest) = .ok (list, rest) := by
  induction list generalizing bytesRead with
  | nil =>
    rw [decodePkhLoop, if_neg (by simp)]
    rfl
  | cons pkh list ih =>
    rw [decodePkhLoop, if_pos (by simp only [List.length_cons]; omega), List.flatMap_cons,
      List.append_assoc]
    have hsize : bytesRead + (pkh :: list).length * 21 = bytesRead + 21 + list.length * 21 := by
      simp only [List.length_cons]
      omega
    rw [hsize]
    refine run_bind_ok.2 ⟨pkh, _, decodeRawPkh_reads.run_enc trivial _, ?_⟩
    exact run_bind_ok.2 ⟨list, rest, ih (bytesRead + 21), rfl⟩

/-- A list of hashes is encoded behind its length in bytes, if that fits. -/
theorem encodePkhList_eq {list : List PublicKeyHash} (h : list.length * 21 < 2 ^ 32) :
    encodePkhList list =
      .ok (be32 (UInt32.ofNat (list.length * 21)) ++ list.flatMap encodeRawPkh) :=
  if_pos h

/-- A list of keys is read back. -/
theorem decodePkhList_run {list : List PublicKeyHash} (h : list.length * 21 < 2 ^ 32)
    (rest : List UInt8) :
    decodePkhList.run (be32 (UInt32.ofNat (list.length * 21)) ++
      (list.flatMap encodeRawPkh ++ rest)) = .ok (list, rest) := by
  refine run_bind_ok.2 ⟨_, _, readU32Be_reads.run_enc trivial _, ?_⟩
  have hloop := decodePkhLoop_run list 0 rest
  rw [UInt32.toNat_ofNat', Nat.mod_eq_of_lt h]
  rwa [Nat.zero_add] at hloop

section
variable [Blst] [LawfulBlst] [Bson]

/-- The requests a response can answer: one of its operation, any for an error. -/
def Answers : SignerRequest → SignerResponse → Prop
  | _, .error _ => True
  | .sign .., .signature _ | .blsProveRequest .., .signature _ => True
  | .publicKey _, .publicKey _ => True
  | .authorizedKeys, .authorizedKeys _ => True
  | .deterministicNonce .., .nonce _ => True
  | .deterministicNonceHash .., .nonceHash _ => True
  | .supportsDeterministicNonces _, .bool _ => True
  | .knownKeys, .knownKeys _ => True
  | _, _ => False

/-- An error whose trace fits in a frame. -/
def TraceFits (s : SignerResponse) : Prop :=
  ∀ msg, s = .error msg →
    ∃ bytes, Bson.toWriter (errorDoc msg) = .ok bytes ∧ bytes.length + 4 ≤ maxDataLen

omit [Blst] [LawfulBlst] in
/-- The trace of one item holds the message of the item. -/
theorem traceMessages_singleton {bytes : List UInt8} (h : bytes.length < 2 ^ 32) :
    traceMessages (be32 (UInt32.ofNat bytes.length) ++ bytes) = (itemMessage bytes).toList := by
  have hlen : (UInt32.ofNat bytes.length).toNat = bytes.length := by
    rw [UInt32.toNat_ofNat']
    exact Nat.mod_eq_of_lt h
  have hword := ofBe32_be32 (UInt32.ofNat bytes.length)
  unfold be32
  simp only [List.cons_append, List.nil_append]
  rw [traceMessages, hword, hlen, if_neg (Nat.lt_irrefl _), List.take_length, List.drop_length,
    traceMessages, List.append_nil]
  simp

omit [Blst] [LawfulBlst] in
/-- The message of an error is read back from its document. -/
theorem itemMessage_errorDoc [LawfulBson] {msg : String} {bytes : List UInt8}
    (h : Bson.toWriter (errorDoc msg) = .ok bytes) : itemMessage bytes = some msg := by
  rw [itemMessage, LawfulBson.fromReader_toWriter _ _ h]
  exact LawfulBson.getStr_doc _ _

omit [LawfulBlst] in
/-- What an error response is decoded from, under its tag. -/
theorem decodeResponse_cons_error {bytes rest : List UInt8} {q : SignerRequest}
    {s : SignerResponse} (h : decodeError.run bytes = .ok (s, rest)) :
    decodeResponse (0x01 :: bytes) q = .ok s :=
  run'_ok.2 ⟨rest, run_bind_ok.2 ⟨0x01, bytes, rfl, h⟩⟩

omit [LawfulBlst] in
/-- What another response is decoded from, under its tag. -/
theorem decodeResponse_cons_ok {bytes rest : List UInt8} {q : SignerRequest}
    {s : SignerResponse} (h : (decodePayload q).run bytes = .ok (s, rest)) :
    decodeResponse (0x00 :: bytes) q = .ok s :=
  run'_ok.2 ⟨rest, run_bind_ok.2 ⟨0x00, bytes, rfl, h⟩⟩

omit [Blst] [LawfulBlst] in
/-- The encoding of an error whose trace fits. -/
theorem encodeError_eq {msg : String} {bytes : List UInt8}
    (h : Bson.toWriter (errorDoc msg) = .ok bytes) (hfits : bytes.length + 4 ≤ maxDataLen) :
    encodeError msg = .ok (0x01 :: (be32 (UInt32.ofNat (bytes.length + 4)) ++
      (be32 (UInt32.ofNat bytes.length) ++ bytes))) := by
  have hlt : bytes.length < 2 ^ 32 := by
    simp only [maxDataLen] at hfits
    omega
  have htotal : UInt32.ofNat bytes.length + 4 = UInt32.ofNat (bytes.length + 4) := by
    simp only [UInt32.ofNat_add, UInt32.reduceOfNat]
  simp only [encodeError, h, Except.mapError, bind, Except.bind, if_pos hlt, htotal]
  rfl

omit [LawfulBlst] in
/-- An error is read back from its trace. -/
theorem decodeError_run [LawfulBson] {msg : String} {bytes : List UInt8}
    (h : Bson.toWriter (errorDoc msg) = .ok bytes) (hfits : bytes.length + 4 ≤ maxDataLen) :
    decodeError.run (be32 (UInt32.ofNat (bytes.length + 4)) ++
      (be32 (UInt32.ofNat bytes.length) ++ bytes)) = .ok (.error msg, []) := by
  have hlt : bytes.length < 2 ^ 32 := by
    simp only [maxDataLen] at hfits
    omega
  have hlen : (be32 (UInt32.ofNat bytes.length) ++ bytes).length = bytes.length + 4 := by
    rw [List.length_append, be32_length, Nat.add_comm]
  have hread := decodeBytes_reads.run_enc_nil (a := be32 (UInt32.ofNat bytes.length) ++ bytes)
    (by rw [hlen]; exact hfits)
  rw [hlen] at hread
  refine run_bind_ok.2 ⟨_, [], hread, ?_⟩
  rw [traceMessages_singleton hlt, itemMessage_errorDoc h]
  rfl

omit [Bson] in
/-- The payload of a response is read back by a request it answers, unless it is a list of
authorised keys or a list whose size does not fit its prefix. -/
theorem decodePayload_run {q : SignerRequest} {s : SignerResponse} (hq : Answers q s)
    (herror : ∀ msg, s ≠ .error msg) (hauth : ∀ list, s ≠ .authorizedKeys (some list))
    (hlist : ∀ keys, s = .knownKeys keys → keys.length * 21 < 2 ^ 32) :
    ∃ bytes, encodePayload s = .ok bytes ∧ (decodePayload q).run bytes = .ok (s, []) := by
  cases s with
  | signature sig =>
    refine ⟨_, rfl, ?_⟩
    cases q with
    | sign | blsProveRequest =>
      exact run_bind_ok.2 ⟨sig, [], decodeSignature_reads.run_enc_nil trivial, rfl⟩
    | _ => exact hq.elim
  | publicKey pk =>
    refine ⟨_, rfl, ?_⟩
    cases q with
    | publicKey => exact run_bind_ok.2 ⟨pk, [], decodePk_reads.run_enc_nil trivial, rfl⟩
    | _ => exact hq.elim
  | authorizedKeys keys =>
    cases keys with
    | none =>
      refine ⟨_, rfl, ?_⟩
      cases q with
      | authorizedKeys => rfl
      | _ => exact hq.elim
    | some list => exact absurd rfl (hauth list)
  | nonce n =>
    refine ⟨_, rfl, ?_⟩
    cases q with
    | deterministicNonce =>
      exact run_bind_ok.2 ⟨n, [], (Reads.readExact _ 32).run_enc_nil trivial, rfl⟩
    | _ => exact hq.elim
  | nonceHash n =>
    refine ⟨_, rfl, ?_⟩
    cases q with
    | deterministicNonceHash =>
      exact run_bind_ok.2 ⟨n, [], (Reads.readExact _ 32).run_enc_nil trivial, rfl⟩
    | _ => exact hq.elim
  | bool b =>
    refine ⟨_, rfl, ?_⟩
    cases q with
    | supportsDeterministicNonces => cases b <;> rfl
    | _ => exact hq.elim
  | knownKeys keys =>
    have hlt := hlist keys rfl
    refine ⟨_, encodePkhList_eq hlt, ?_⟩
    cases q with
    | knownKeys =>
      have hrun := decodePkhList_run hlt []
      rw [List.append_nil] at hrun
      exact run_bind_ok.2 ⟨keys, [], hrun, rfl⟩
    | _ => exact hq.elim
  | error msg => exact absurd rfl (herror msg)

/-- A response is read back by a request it answers exactly when it is no list of authorised keys,
whose union tag is not the tag of an option, and no list too long for its prefix. -/
theorem decodeResponse_encodeResponse [LawfulBson] (q : SignerRequest) (s : SignerResponse)
    (hq : Answers q s) (hfits : TraceFits s) :
    (encodeResponse s).bind (decodeResponse · q) = .ok s ↔
      (∀ list, s ≠ .authorizedKeys (some list)) ∧
        ∀ keys, s = .knownKeys keys → keys.length * 21 < 2 ^ 32 := by
  constructor
  · intro h
    constructor
    · rintro list rfl
      cases q with
      | authorizedKeys =>
        by_cases hlt : list.length * 21 < 2 ^ 32
        · simp only [encodeResponse, encodePayload, encodePkhList_eq hlt] at h
          cases h
        · simp only [encodeResponse, encodePayload, encodePkhList, if_neg hlt] at h
          cases h
      | _ => exact hq
    · rintro keys rfl
      by_contra hlt
      simp only [encodeResponse, encodePayload, encodePkhList, if_neg hlt] at h
      cases h
  · rintro ⟨hauth, hlist⟩
    by_cases herror : ∃ msg, s = .error msg
    · obtain ⟨msg, rfl⟩ := herror
      obtain ⟨bytes, hbytes, hle⟩ := hfits msg rfl
      show (encodeError msg).bind (decodeResponse · q) = _
      rw [encodeError_eq hbytes hle, ok_bind]
      exact decodeResponse_cons_error (decodeError_run hbytes hle)
    · have hne : ∀ msg, s ≠ .error msg := fun msg hs => herror ⟨msg, hs⟩
      obtain ⟨bytes, hbytes, hrun⟩ := decodePayload_run hq hne hauth hlist
      have hencode : encodeResponse s = .ok (0x00 :: bytes) := by
        cases s with
        | error msg => exact absurd rfl (hne msg)
        | _ =>
          simp only [encodeResponse, hbytes]
          rfl
      rw [hencode, ok_bind]
      exact decodeResponse_cons_ok hrun

end

section
attribute [local instance] plainBlst plainBlst_lawful plainBson plainBson_lawful

/-- An error comes back with its text. -/
theorem decodeResponse_encodeResponse_denied :
    (encodeResponse (.error "denied")).bind (decodeResponse · .knownKeys) =
      .ok (.error "denied") := by
  have hfits : TraceFits (.error "denied") := by
    intro msg hmsg
    cases hmsg
    exact ⟨bsonError (Crypto.asBytes "denied"), rfl, by decide +kernel⟩
  refine (decodeResponse_encodeResponse .knownKeys (.error "denied") trivial hfits).2 ⟨?_, ?_⟩
  · intro list h
    cases h
  · intro keys h
    cases h

/-- The empty list of authorised keys is written and not read back. -/
theorem authorizedKeys_some_refused :
    ¬ ∀ [Blst] [LawfulBlst] [Bson] [LawfulBson] (q : SignerRequest) (s : SignerResponse),
      Answers q s → TraceFits s → (encodeResponse s).bind (decodeResponse · q) = .ok s := by
  intro h
  have hfits : TraceFits (.authorizedKeys (some [])) := by
    intro msg hmsg
    cases hmsg
  have hok := h .authorizedKeys (.authorizedKeys (some [])) trivial hfits
  cases hok

end

end Encoding

end Russignol
