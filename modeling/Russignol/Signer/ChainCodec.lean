import Russignol.Signer.Identity

/-!
# The text of a chain

`ChainId::to_b58check` and `ChainId::from_b58check` of `libs/signer/src/high_watermark.rs`. The
second reads four bytes after the prefix and leaves what follows them, so a text with a longer
payload reads as the chain of its first four bytes: `chain_text_exact_iff` says which texts are
read exactly.

Checked base58 is a crate's (`Base58`); `LawfulBase58check` says that its texts and its byte strings
are in bijection.
-/

namespace Russignol

/-- The crate's checked encoding is a bijection between byte strings and the texts it decodes. -/
class LawfulBase58check [Base58] : Prop where
  decode_encode : ∀ data : List UInt8, Base58.decodeCheck (Base58.encodeCheck data) = some data
  encode_decode : ∀ (s : String) (data : List UInt8), Base58.decodeCheck s = some data →
    Base58.encodeCheck data = s

namespace ChainId

/-- The four bytes a chain is known by are those of its id. -/
theorem ofFour_take (four : Bytes.Fixed 4) : (ofFour four).bytes.1.take 4 = four.1 :=
  List.take_left' four.2

/-- An id whose trailing bytes are zero is that of its leading four. -/
theorem eq_ofFour {c : ChainId} (h : c.bytes.1.drop 4 = List.replicate 28 0) :
    c = ofFour ⟨c.bytes.1.take 4, by rw [List.length_take, c.bytes.2]; rfl⟩ := by
  obtain ⟨bytes, hbytes⟩ := c
  have hsplit : bytes = bytes.take 4 ++ List.replicate 28 0 := by
    rw [← h]
    exact (List.take_append_drop 4 bytes).symm
  exact congrArg ChainId.mk (Subtype.ext hsplit)

section

variable [Base58]

/-- A text is read where it is the base58check form of the prefix and four bytes or more. -/
theorem fromB58check_eq_some_iff {s : String} {c : ChainId} :
    fromB58check s = some c ↔ ∃ (four : Bytes.Fixed 4) (rest : List UInt8),
      Base58.decodeCheck s = some (netPrefix ++ four.1 ++ rest) ∧ c = ofFour four := by
  have htake : ∀ (four : Bytes.Fixed 4) (rest : List UInt8),
      (((netPrefix ++ four.1 ++ rest).drop 3).take 4) = four.1 := by
    intro four rest
    have hdrop : (netPrefix ++ four.1 ++ rest).drop 3 = four.1 ++ rest := rfl
    rw [hdrop]
    exact List.take_left' four.2
  constructor
  · intro h
    unfold fromB58check at h
    split at h
    · cases h
    · rename_i decoded hdecoded
      split_ifs at h with hprefix hlen
      cases h
      refine ⟨⟨(decoded.drop 3).take 4, hlen⟩, (decoded.drop 3).drop 4, ?_, rfl⟩
      rw [hdecoded, ← hprefix, List.append_assoc, List.take_append_drop, List.take_append_drop]
  · rintro ⟨four, rest, hdecoded, rfl⟩
    have hlen : (((netPrefix ++ four.1 ++ rest).drop 3).take 4).length = 4 := by
      rw [htake, four.2]
    have hprefix : (netPrefix ++ four.1 ++ rest).take 3 = netPrefix := rfl
    unfold fromB58check
    rw [hdecoded]
    simp only [if_pos hprefix, dif_pos hlen]
    exact congrArg some (congrArg ofFour (Subtype.ext (htake four rest)))

/-- What is read of a text is what its payload is: the prefix and four bytes, which the text is the
only one of. -/
structure ReadExactly (s : String) : Prop where
  inverse : ∀ c, fromB58check s = some c → c.toB58check = s
  longer : ∀ payload, Base58.decodeCheck s = some payload → 7 < payload.length →
    fromB58check s = none
  otherPrefix : ∀ payload, Base58.decodeCheck s = some payload → ¬netPrefix <+: payload →
    fromB58check s = none
  checksum : Base58.decodeCheck s = none → fromB58check s = none

variable [LawfulBase58check]

/-- The text of a chain reads back as the chain. -/
theorem fromB58check_toB58check {c : ChainId} (h : c.bytes.1.drop 4 = List.replicate 28 0) :
    fromB58check c.toB58check = some c := by
  refine fromB58check_eq_some_iff.2 ⟨_, [], ?_, eq_ofFour h⟩
  rw [toB58check, LawfulBase58check.decode_encode, List.append_nil]

/-- **A text is read exactly where its payload is not the prefix and more than four bytes**, and
every chain's own text reads back as the chain. -/
theorem chain_text_exact_iff :
    (∀ c : ChainId, c.bytes.1.drop 4 = List.replicate 28 0 →
      fromB58check c.toB58check = some c) ∧
    ∀ s : String, ReadExactly s ↔
      ∀ payload, Base58.decodeCheck s = some payload → netPrefix <+: payload →
        payload.length ≤ 7 := by
  refine ⟨fun c => fromB58check_toB58check, fun s => ⟨fun hexact payload hdecoded hprefix => ?_,
    fun hshort => ?_⟩⟩
  · by_contra hlong
    obtain ⟨tail, rfl⟩ := hprefix
    have hlen : 7 < netPrefix.length + tail.length := by
      rw [← List.length_append]
      omega
    replace hlen : 4 < tail.length := by
      have : netPrefix.length = 3 := rfl
      omega
    have hread : fromB58check s =
        some (ofFour ⟨tail.take 4, by rw [List.length_take]; omega⟩) := by
      refine fromB58check_eq_some_iff.2 ⟨_, tail.drop 4, ?_, rfl⟩
      rw [hdecoded, List.append_assoc, List.take_append_drop]
    rw [hexact.longer _ hdecoded (by omega)] at hread
    cases hread
  · -- a text that is read has the prefix and four bytes, and the bound leaves nothing after them
    have hread : ∀ c, fromB58check s = some c → ∃ four : Bytes.Fixed 4,
        Base58.decodeCheck s = some (netPrefix ++ four.1) ∧ c = ofFour four := by
      intro c hc
      obtain ⟨four, rest, hdecoded, rfl⟩ := fromB58check_eq_some_iff.1 hc
      have hlen := hshort _ hdecoded (by rw [List.append_assoc]; exact List.prefix_append ..)
      rw [List.length_append, List.length_append, four.2] at hlen
      have hnil : rest = [] := List.eq_nil_of_length_eq_zero (by
        have : netPrefix.length = 3 := rfl
        omega)
      rw [hnil, List.append_nil] at hdecoded
      exact ⟨four, hdecoded, rfl⟩
    have hrejected : ∀ bad : Prop, bad → (∀ four : Bytes.Fixed 4,
        Base58.decodeCheck s = some (netPrefix ++ four.1) → ¬bad) → fromB58check s = none := by
      intro bad hbad hnot
      cases hc : fromB58check s with
      | none => rfl
      | some c =>
        obtain ⟨four, hdecoded, -⟩ := hread c hc
        exact absurd hbad (hnot four hdecoded)
    refine ⟨fun c hc => ?_, fun payload hdecoded hlong => ?_, fun payload hdecoded hother => ?_,
      fun hnone => ?_⟩
    · obtain ⟨four, hdecoded, rfl⟩ := hread c hc
      rw [toB58check, ofFour_take]
      exact LawfulBase58check.encode_decode s _ hdecoded
    · refine hrejected _ hlong fun four hfour => ?_
      rw [hdecoded] at hfour
      rw [Option.some.inj hfour, List.length_append, four.2]
      decide
    · refine hrejected _ hother fun four hfour hnot => ?_
      rw [hdecoded] at hfour
      exact hnot (Option.some.inj hfour ▸ List.prefix_append ..)
    · refine hrejected _ hnone fun four hfour hnot => ?_
      rw [hnot] at hfour
      cases hfour

end

/-! ## Two texts of the main chain -/

/-- The payload of the main chain, and what may follow it. -/
def mainnetPayload (rest : List UInt8) : List UInt8 := netPrefix ++ [0x7a, 0x06, 0xa7, 0x70] ++ rest

/-- A byte as a character that is not base58. -/
def wideChar (b : UInt8) : Char := Char.ofNat (256 + b.toNat)

/-- The character that stands for a byte lies 256 above it. -/
theorem toNat_wideChar (b : UInt8) : (wideChar b).toNat = 256 + b.toNat := by
  have hvalid : (256 + b.toNat).isValidChar := .inl (by have := b.toNat_lt; omega)
  rw [wideChar, Char.ofNat, dif_pos hvalid]
  rfl

/-- The bytes of a text of such characters. -/
def wideBytes (s : String) : Option (List UInt8) :=
  if s.toList.all fun c => wideChar (UInt8.ofNat (c.toNat - 256)) = c then
    some (s.toList.map fun c => UInt8.ofNat (c.toNat - 256))
  else none

/-- The byte comes back from its character. -/
theorem ofNat_wideChar (b : UInt8) : UInt8.ofNat ((wideChar b).toNat - 256) = b := by
  rw [toNat_wideChar, Nat.add_sub_cancel_left, UInt8.ofNat_toNat]

/-- A text of such characters stands for its bytes. -/
theorem wideBytes_ofList (data : List UInt8) :
    wideBytes (String.ofList (data.map wideChar)) = some data := by
  have hbytes : (data.map wideChar).map (fun c => UInt8.ofNat (c.toNat - 256)) = data := by
    rw [List.map_map]
    exact (List.map_congr_left fun b _ => ofNat_wideChar b).trans (List.map_id data)
  rw [wideBytes, String.toList_ofList, if_pos, hbytes]
  rw [List.all_eq_true]
  intro c hc
  obtain ⟨b, -, rfl⟩ := List.mem_map.1 hc
  rw [ofNat_wideChar]
  exact decide_eq_true rfl

/-- A text that stands for bytes is the one written for them. -/
theorem ofList_of_wideBytes {s : String} {data : List UInt8} (h : wideBytes s = some data) :
    String.ofList (data.map wideChar) = s := by
  unfold wideBytes at h
  split at h
  · rename_i hall
    cases h
    rw [List.map_map]
    refine (congrArg String.ofList ?_).trans String.ofList_toList
    refine (List.map_congr_left fun c hc => ?_).trans (List.map_id s.toList)
    have hround := List.all_eq_true.1 hall c hc
    rw [decide_eq_true_iff] at hround
    rw [Function.comp_apply, id_eq]
    exact hround
  · cases h

/-- Checked base58 on the main chain's payload, with a byte after it and without one; other
payloads have texts of their own. -/
def mainnetEncode (data : List UInt8) : String :=
  if data = mainnetPayload [] then "NetXdQprcVkpaWU"
  else if data = mainnetPayload [0] then "2eaESBiADyYxKksRi"
  else String.ofList (data.map wideChar)

/-- Its inverse. -/
def mainnetDecode (s : String) : Option (List UInt8) :=
  if s = "NetXdQprcVkpaWU" then some (mainnetPayload [])
  else if s = "2eaESBiADyYxKksRi" then some (mainnetPayload [0])
  else (wideBytes s).filter fun data => data ≠ mainnetPayload [] ∧ data ≠ mainnetPayload [0]

/-- What this codec encodes it decodes. -/
theorem mainnetDecode_encode (data : List UInt8) : mainnetDecode (mainnetEncode data) = some data := by
  have hother : ∀ s : String, wideBytes s = none → String.ofList (data.map wideChar) ≠ s := by
    rintro s hnone rfl
    rw [wideBytes_ofList] at hnone
    cases hnone
  unfold mainnetEncode
  by_cases hmain : data = mainnetPayload []
  · rw [if_pos hmain, mainnetDecode, if_pos rfl, hmain]
  · rw [if_neg hmain]
    by_cases hrest : data = mainnetPayload [0]
    · rw [if_pos hrest, mainnetDecode, if_neg (by decide), if_pos rfl, hrest]
    · rw [if_neg hrest, mainnetDecode, if_neg (hother _ (by decide +kernel)),
        if_neg (hother _ (by decide +kernel)), wideBytes_ofList]
      exact Option.filter_some_pos (decide_eq_true ⟨hmain, hrest⟩)

/-- What it decodes it encodes to the same text. -/
theorem mainnetEncode_decode {s : String} {data : List UInt8} (h : mainnetDecode s = some data) :
    mainnetEncode data = s := by
  unfold mainnetDecode at h
  split_ifs at h with hmain hrest
  · cases h
    rw [mainnetEncode, if_pos rfl, hmain]
  · cases h
    rw [mainnetEncode, if_neg (by decide), if_pos rfl, hrest]
  · obtain ⟨hwide, hnot⟩ := Option.filter_eq_some_iff.1 h
    obtain ⟨hfirst, hsecond⟩ := of_decide_eq_true hnot
    rw [mainnetEncode, if_neg hfirst, if_neg hsecond, ofList_of_wideBytes hwide]

/-- A stand-in for the crate that knows two texts. -/
@[reducible] def mainnetBase58check : Base58 where
  sha256 _ := Bytes.zeros 32
  encode _ := ""
  decode _ := none
  encodeCheck := mainnetEncode
  decodeCheck := mainnetDecode

/-- It is a lawful codec, under which the chain id of mainnet has its name. -/
theorem mainnetBase58check_lawful : @LawfulBase58check mainnetBase58check :=
  @LawfulBase58check.mk mainnetBase58check mainnetDecode_encode fun _ _ => mainnetEncode_decode

section

attribute [local instance] mainnetBase58check mainnetBase58check_lawful

/-- The main chain's own text is read exactly. -/
theorem chain_text_exact_mainnet :
    fromB58check "NetXdQprcVkpaWU" = some (ofFour ⟨[0x7a, 0x06, 0xa7, 0x70], rfl⟩) ∧
      ReadExactly "NetXdQprcVkpaWU" := by
  refine ⟨chain_text_exact_iff.1 (ofFour ⟨[0x7a, 0x06, 0xa7, 0x70], rfl⟩) rfl,
    (chain_text_exact_iff.2 _).2 fun payload hdecoded _ => ?_⟩
  cases hdecoded
  decide

end

/-- A text with a zero byte after the main chain's four is read as the main chain. -/
theorem chain_text_longer : ¬∀ [Base58] [LawfulBase58check] (s : String) (c : ChainId),
    fromB58check s = some c → c.toB58check = s := by
  intro hall
  have hback := @hall mainnetBase58check mainnetBase58check_lawful "2eaESBiADyYxKksRi"
    (ofFour ⟨[0x7a, 0x06, 0xa7, 0x70], rfl⟩) rfl
  exact absurd hback (by decide +kernel)

end ChainId

end Russignol
