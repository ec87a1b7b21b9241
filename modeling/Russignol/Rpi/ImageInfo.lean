import Russignol.Base.Json
import Russignol.Rpi.App
import Russignol.Rpi.TezosEncrypt

/-!
# The image screen

`image_info.rs` and `pages/image_info.rs` of `rpi-signer`: the flash manifest that the init script
hands over, and the rows in which its texts are drawn. The checksums are shortened in the middle, by
bytes (`truncateMiddle`); a slice that does not lie between characters ends the program, which is
`none` here. What `truncate_middle` promises of characters holds exactly where the bytes are
characters (`truncateMiddle_truncated_iff`).
-/

namespace Russignol

open CharBoundary
open String (utf8Len utf8Len_append)

/-! ## The flash manifest -/

/-- `FlashManifest`. -/
structure FlashManifest where
  cardId : String
  flashedAt : String
  hostVersion : String
  imageSha256 : String
  imageVersion : Option String
  channel : Option String
  rootfsSha256 : Option String
  signed : Option String
  deriving DecidableEq, Repr

namespace FlashManifest

/-- The names of the fields, in their order. -/
def fieldNames : List String :=
  ["card_id", "flashed_at", "host_version", "image_sha256", "image_version", "channel",
    "rootfs_sha256", "signed"]

/-- A field that may be `null`, or be missing in an object. -/
def optionField (j : Json) (field : String → Option Json) (name : String) :
    Option (Option String) :=
  match field name, j with
  | some .null, _ => some none
  | some value, _ => value.asStr.map some
  | none, .obj _ => some none
  | none, _ => none

/-- A manifest, from its tree. -/
def ofJson (j : Json) : Option FlashManifest := do
  let field ← j.record fieldNames
  let cardId ← Json.strField field "card_id"
  let flashedAt ← Json.strField field "flashed_at"
  let hostVersion ← Json.strField field "host_version"
  let imageSha256 ← Json.strField field "image_sha256"
  let imageVersion ← optionField j field "image_version"
  let channel ← optionField j field "channel"
  let rootfsSha256 ← optionField j field "rootfs_sha256"
  let signed ← optionField j field "signed"
  pure { cardId, flashedAt, hostVersion, imageSha256, imageVersion, channel, rootfsSha256, signed }

end FlashManifest

/-- `parse_manifest`. -/
def parseManifest [JsonText] (raw : String) : Option FlashManifest :=
  let trimmed := String.ofList (TezosEncrypt.trim raw.toList)
  if trimmed = "" then none
  else (JsonText.decode "struct FlashManifest" FlashManifest.ofJson trimmed).toOption

/-! ## Its rows -/

/-- `Row`. -/
structure Row where
  label : String
  value : String
  deriving DecidableEq, Repr

namespace ImageInfo

/-- `UNKNOWN`, `ABSENT`. -/
def unknown : String := "Unknown"

def absent : String := "—"

/-- `version_known`: the release version, or the commit the signer was built from. -/
def versionKnown (manifest : Option FlashManifest) (buildCommit : Option String) :
    Option String :=
  match manifest.bind fun m => m.imageVersion.map fun version => (version, m.channel) with
  | some (version, some channel) => some (version ++ " (" ++ channel ++ ")")
  | some (version, none) => some version
  | none => buildCommit

/-- `version_display`. -/
def versionDisplay (manifest : Option FlashManifest) (buildCommit : Option String) : String :=
  (versionKnown manifest buildCommit).getD unknown

/-- `signed_known`. -/
def signedKnown : Option String → Option String
  | some "verified" => some "Verified"
  | some "unsigned" => some "Unsigned"
  | some "unavailable" => some "Unavailable"
  | _ => none

/-- `signed_display`. -/
def signedDisplay (signed : Option String) : String := (signedKnown signed).getD unknown

/-- `flashed_display`: the part before the first `T`. -/
def flashedDisplay : Option FlashManifest → String
  | some manifest => String.ofList (manifest.flashedAt.toList.takeWhile (· ≠ 'T'))
  | none => absent

/-- `posture_rows`. -/
def postureRows (manifest : Option FlashManifest) (hardened : Bool)
    (buildCommit : Option String) : List Row :=
  [⟨"Version", versionDisplay manifest buildCommit⟩,
    ⟨"Mode", if hardened then "Hardened" else "Dev"⟩,
    ⟨"Signed", signedDisplay (manifest.bind FlashManifest.signed)⟩,
    ⟨"Flashed", flashedDisplay manifest⟩]

/-- `checksum_rows`. -/
def checksumRows (manifest : Option FlashManifest) : List Row :=
  [⟨"Image", (manifest.map FlashManifest.imageSha256).getD absent⟩,
    ⟨"Rootfs", (manifest.bind FlashManifest.rootfsSha256).getD absent⟩,
    ⟨"Host", (manifest.map FlashManifest.hostVersion).getD absent⟩,
    ⟨"Card ID", (manifest.map FlashManifest.cardId).getD absent⟩]

/-! ## The page -/

/-- `View`. -/
inductive View
  | posture
  | checksums
  deriving DecidableEq, Repr

/-- The rows of a view. -/
def rows (manifest : Option FlashManifest) (hardened : Bool) (buildCommit : Option String) :
    View → List Row
  | .posture => postureRows manifest hardened buildCommit
  | .checksums => checksumRows manifest

/-- `draw_label_value`: the text of the value. -/
def drawLabelValue (value : String) (monoValue : Bool) : Option (List Char) :=
  if monoValue then truncateMiddle value.toList 10 6 else some value.toList

/-- `ROW_Y`. -/
def rowY : List Int := [52, 72, 92, 112]

/-- `draw`: the labels and the texts of their values, with the heights of the rows. -/
def draw (rows : List Row) (view : View) : Option (List (String × List Char × Int)) :=
  (rows.zip rowY).mapM fun (row, y) =>
    (drawLabelValue row.value (view = .checksums)).map fun text => (row.label, text, y)

end ImageInfo

/-! ## What is promised of a text -/

/-- A text is shortened to its first and last characters, joined by the dots, or is left as it
is. -/
def Truncated (s : List Char) (pre suffix : Nat) : Prop :=
  ∃ text, truncateMiddle s pre suffix = some text ∧
    if pre + suffix + 3 < s.length then
      text.length ≤ pre + suffix + 3 ∧ s.take pre <+: text ∧ s.drop (s.length - suffix) <:+ text ∧
        text = s.take pre ++ ellipsis ++ s.drop (s.length - suffix)
    else text = s

/-- The text is short by its bytes; or it is long by its characters, and takes one byte for each of
those that are kept. -/
def OneByteEnds (s : List Char) (pre suffix : Nat) : Prop :=
  utf8Len s ≤ pre + suffix + 3 ∨
    pre + suffix + 3 < s.length ∧ (∀ c ∈ s.take pre, c.utf8Size = 1) ∧
      ∀ c ∈ s.drop (s.length - suffix), c.utf8Size = 1

variable {s : List Char} {pre suffix : Nat}

/-- A text that is cut at both ends. -/
theorem truncateMiddle_cut {text : List Char} (hlong : ¬utf8Len s ≤ pre + suffix + 3)
    (h : truncateMiddle s pre suffix = some text) :
    ∃ head tail, text = head ++ ellipsis ++ tail ∧ utf8Len head = pre ∧ utf8Len tail = suffix := by
  rw [truncateMiddle, if_neg hlong] at h
  obtain ⟨⟨head, rest⟩, hhead, h⟩ := Option.bind_eq_some_iff.1 h
  obtain ⟨⟨before, tail⟩, htail, h⟩ := Option.bind_eq_some_iff.1 h
  cases h
  refine ⟨head, tail, rfl, (eq_append_of_splitAtByte hhead).2, ?_⟩
  obtain ⟨hs, hbefore⟩ := eq_append_of_splitAtByte htail
  have hsum : utf8Len s = utf8Len before + utf8Len tail := by
    conv_lhs => rw [hs]
    exact utf8Len_append before tail
  omega

/-- Where the ends take one byte a character, the characters are cut. -/
theorem truncateMiddle_of_oneByte (hlong : pre + suffix + 3 < s.length)
    (hpre : ∀ c ∈ s.take pre, c.utf8Size = 1)
    (hsuffix : ∀ c ∈ s.drop (s.length - suffix), c.utf8Size = 1) :
    truncateMiddle s pre suffix =
      some (s.take pre ++ ellipsis ++ s.drop (s.length - suffix)) := by
  have hbytes := length_le_utf8Len s
  have hhead : utf8Len (s.take pre) = pre := by
    rw [utf8Len_eq_length.2 hpre, List.length_take]
    omega
  have htail : utf8Len (s.drop (s.length - suffix)) = suffix := by
    rw [utf8Len_eq_length.2 hsuffix, List.length_drop]
    omega
  have hbefore : utf8Len (s.take (s.length - suffix)) = utf8Len s - suffix := by
    have hsum := utf8Len_append (s.take (s.length - suffix)) (s.drop (s.length - suffix))
    rw [List.take_append_drop, htail] at hsum
    omega
  have hcutHead := splitAtByte_append (s.take pre) (s.drop pre)
  have hcutTail := splitAtByte_append (s.take (s.length - suffix)) (s.drop (s.length - suffix))
  rw [List.take_append_drop, hhead] at hcutHead
  rw [List.take_append_drop, hbefore] at hcutTail
  rw [truncateMiddle, if_neg (by omega), hcutHead]
  show (splitAtByte s (utf8Len s - suffix)).bind _ = _
  rw [hcutTail]
  rfl

/-- **Shortening a text** does what it promises of the characters exactly where the bytes are
characters. -/
theorem truncateMiddle_truncated_iff (s : List Char) (pre suffix : Nat) :
    Truncated s pre suffix ↔ OneByteEnds s pre suffix := by
  have hbytes := length_le_utf8Len s
  constructor
  · rintro ⟨text, htext, hends⟩
    by_cases hshort : utf8Len s ≤ pre + suffix + 3
    · exact .inl hshort
    · obtain ⟨head, tail, rfl, hhead, htail⟩ := truncateMiddle_cut hshort htext
      have hsize : utf8Len (head ++ ellipsis ++ tail) = pre + 3 + suffix := by
        rw [utf8Len_append, utf8Len_append, hhead, htail]
        rfl
      split at hends
      · rename_i hlong
        obtain ⟨-, -, -, hends⟩ := hends
        have hkept : utf8Len (s.take pre) + utf8Len (s.drop (s.length - suffix)) =
            pre + suffix := by
          rw [hends, utf8Len_append, utf8Len_append] at hsize
          have hdots : utf8Len ellipsis = 3 := rfl
          omega
        have hpre := length_le_utf8Len (s.take pre)
        have hsuffix := length_le_utf8Len (s.drop (s.length - suffix))
        have hpreLength : (s.take pre).length = pre := by
          rw [List.length_take]
          omega
        have hsuffixLength : (s.drop (s.length - suffix)).length = suffix := by
          rw [List.length_drop]
          omega
        exact .inr ⟨hlong, utf8Len_eq_length.1 (by omega), utf8Len_eq_length.1 (by omega)⟩
      · rw [hends] at hsize
        omega
  · rintro (hshort | ⟨hlong, hpre, hsuffix⟩)
    · refine ⟨s, if_pos hshort, ?_⟩
      rw [if_neg (by omega)]
    · refine ⟨_, truncateMiddle_of_oneByte hlong hpre hsuffix, ?_⟩
      rw [if_pos hlong]
      refine ⟨?_, ?_, ?_, rfl⟩
      · simp only [List.length_append, List.length_take, List.length_drop, ellipsis,
          List.length_cons, List.length_nil]
        omega
      · rw [List.append_assoc]
        exact List.prefix_append _ _
      · exact List.suffix_append _ _

/-- A manifest whose card id has a character of two bytes at the cut: the page ends the program. -/
theorem truncated_cardId : ¬ ∀ (raw : String) (row : Row),
    row ∈ ImageInfo.checksumRows (@parseManifest plainJson raw) →
      Truncated row.value.toList 10 6 := by
  intro hclaim
  obtain ⟨text, htext, -⟩ := hclaim
    ("\x7b\"card_id\":\"aaaaaaaaa\u00e9aaaaaaaaaa\",\"flashed_at\":\"\"," ++
      "\"host_version\":\"\",\"image_sha256\":\"\"\x7d")
    ⟨"Card ID", "aaaaaaaaa\u00e9aaaaaaaaaa"⟩ (by decide +kernel)
  have hnone : truncateMiddle "aaaaaaaaa\u00e9aaaaaaaaaa".toList 10 6 = none := by
    decide +kernel
  cases htext.symm.trans hnone

namespace ImageInfo

theorem isSome_mapM {α β : Type} {f : α → Option β} {l : List α} :
    (l.mapM f).isSome ↔ ∀ a ∈ l, (f a).isSome := by
  induction l with
  | nil => exact ⟨fun _ a ha => absurd ha List.not_mem_nil, fun _ => rfl⟩
  | cons a l ih =>
    rw [List.mapM_cons, List.forall_mem_cons, ← ih]
    cases f a with
    | none => simp
    | some b => cases l.mapM f <;> simp

/-- **The page** ends the program exactly where a checksum is cut inside a character. -/
theorem draw_isSome (manifest : Option FlashManifest) (hardened : Bool)
    (buildCommit : Option String) :
    (draw (rows manifest hardened buildCommit .posture) .posture).isSome ∧
      ((draw (rows manifest hardened buildCommit .checksums) .checksums).isSome ↔
        ∀ row ∈ checksumRows manifest, (truncateMiddle row.value.toList 10 6).isSome) := by
  constructor
  · exact isSome_mapM.2 fun _ _ => rfl
  · unfold draw
    rw [isSome_mapM]
    simp [rows, checksumRows, rowY, drawLabelValue]

end ImageInfo

end Russignol
