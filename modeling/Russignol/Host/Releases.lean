import Mathlib.Data.List.Basic
import Mathlib.Order.Defs.LinearOrder
import Mathlib.Tactic.Common
import Russignol.Base.TextCodec
import Russignol.Rpi.TezosEncrypt

/-!
# The releases

`host-utility/src/version.rs`: which release is the latest, and what is known of its assets from
`checksums.txt` and the detached signatures beside them. A release is found by its tag, and its tag
is read twice: to compare it (`parseTagVersion`), and to name it (`buildVersionInfo`). The two agree
(`parse_trimTag`), so the version that is fetched is that of the latest candidate
(`fetchLatestVersion_spec`).

The version numbers are another crate (`Semver`), and what the network answers is an input (`Web`).
-/

namespace Russignol

/-- The version numbers of `semver`. -/
class Semver where
  Version : Type
  order : LinearOrder Version
  parse : String → Option Version

namespace Semver

instance [Semver] : LinearOrder Semver.Version := order

end Semver

/-- A version number begins with a digit. -/
class LawfulSemver [Semver] : Prop where
  parse_digit : ∀ {s : String} {v : Semver.Version}, Semver.parse s = some v →
    ∃ c rest, s.toList = c :: rest ∧ c.isDigit = true

namespace Host

open TextCodec

/-! ## The releases -/

/-- `GitHubAsset`. -/
structure GitHubAsset where
  name : String
  size : Nat
  browserDownloadUrl : String
  deriving DecidableEq, Repr

/-- `GitHubRelease`. -/
structure GitHubRelease where
  tagName : String
  publishedAt : String
  prerelease : Bool
  assets : List GitHubAsset
  deriving DecidableEq, Repr

/-- `BinaryInfo`. -/
structure BinaryInfo where
  filename : String
  sha256 : String
  sizeBytes : Nat
  downloadUrl : String
  deriving DecidableEq, Repr

/-- `ImageInfo` of the host. -/
structure ReleaseImageInfo where
  filename : String
  sha256 : String
  sizeBytes : Nat
  compressedSizeBytes : Nat
  minSdSizeGb : Nat
  downloadUrl : String
  signature : Option String
  deriving DecidableEq, Repr

/-- `VersionInfo`. A map is the list of its entries, the latest first. -/
structure VersionInfo where
  version : String
  releaseDate : String
  binaries : List (String × BinaryInfo)
  images : List (String × ReleaseImageInfo)
  deriving DecidableEq, Repr

/-- What the network answers: the releases, the text of an asset, and an asset that is downloaded,
at each attempt. -/
structure Web where
  releases : Except String (List GitHubRelease)
  text : String → Option String
  download : String → Nat → Except String (List UInt8)

/-- `RequiredAsset`. -/
inductive RequiredAsset
  | binaries
  | image
  deriving DecidableEq, Repr

/-- The image asset. -/
def imageAsset : String := "russignol-pi-zero.img.xz"

/-- `has_required_asset`. -/
def hasRequiredAsset (release : GitHubRelease) (required : RequiredAsset) : Bool :=
  release.assets.any fun a =>
    match required with
    | .binaries => a.name == "russignol-amd64" || a.name == "russignol-aarch64"
    | .image => a.name == imageAsset

/-! ## Checksums and signatures -/

/-- A line of `checksums.txt`, where it names a file. -/
def parseChecksumLine (line : List Char) : Option (String × String) :=
  let line := TezosEncrypt.trim line
  if line = [] then none
  else (splitOnce "  ".toList line).map fun (hash, filename) =>
    (String.ofList filename, String.ofList hash)

/-- `parse_checksums`. -/
def parseChecksums (content : String) : List (String × String) :=
  ((lines content.toList).filterMap parseChecksumLine).reverse

/-- `fetch_checksums`. -/
def fetchChecksums (web : Web) (assets : List GitHubAsset) : List (String × String) :=
  match assets.find? (·.name == "checksums.txt") with
  | none => []
  | some asset =>
    match web.text asset.browserDownloadUrl with
    | none => []
    | some content => parseChecksums content

/-- `parse_signature_content`. -/
def parseSignatureContent (content : String) : Option String :=
  let trimmed := TezosEncrypt.trim content.toList
  if trimmed = [] then none else some (String.ofList trimmed)

/-- The signature in an asset, with the name of the asset that it signs. -/
def fetchSignature (web : Web) (asset : GitHubAsset) : Option (String × String) := do
  let signedName ← asset.name.toList.dropSuffix? ".sig".toList
  let content ← web.text asset.browserDownloadUrl
  let signature ← parseSignatureContent content
  return (String.ofList signedName, signature)

/-- `fetch_signatures`. -/
def fetchSignatures (web : Web) (assets : List GitHubAsset) : List (String × String) :=
  (assets.filterMap (fetchSignature web)).reverse

/-! ## The latest release -/

section
variable [Semver]

/-- `parse_tag_version`. -/
def parseTagVersion (tag : String) : Option Semver.Version := do
  let version ← (tag.toList.dropPrefix? "host-utility-v".toList).or
    (tag.toList.dropPrefix? "v".toList)
  Semver.parse (String.ofList version)

/-- The releases that pass the filters of prereleases and of assets. -/
def eligible (releases : List GitHubRelease) (includePrerelease : Bool) (required : RequiredAsset) :
    List GitHubRelease :=
  (releases.filter fun r => includePrerelease || !r.prerelease).filter (hasRequiredAsset · required)

/-- `unparsed_candidate_tags`. -/
def unparsedCandidateTags (releases : List GitHubRelease) (includePrerelease : Bool)
    (required : RequiredAsset) : List String :=
  ((eligible releases includePrerelease required).filter fun r =>
    (parseTagVersion r.tagName).isNone).map (·.tagName)

/-- `Iterator::max_by`, of pairs by their versions: the last of the greatest. -/
def maxByVersion {α : Type} : List (Semver.Version × α) → Option (Semver.Version × α)
  | [] => none
  | p :: ps => some (ps.foldl (fun x y => if y.1 < x.1 then x else y) p)

/-- `select_latest_release`. -/
def selectLatestRelease (releases : List GitHubRelease) (includePrerelease : Bool)
    (required : RequiredAsset) : Option GitHubRelease :=
  (maxByVersion ((eligible releases includePrerelease required).filterMap fun r =>
    (parseTagVersion r.tagName).map (·, r))).map (·.2)

/-- `trim_start_matches`, of a pattern that is not empty. -/
def trimStartMatches (pattern : List Char) (s : List Char) : List Char :=
  go s.length s
where
  go : Nat → List Char → List Char
    | 0, s => s
    | n + 1, s =>
      match s.dropPrefix? pattern with
      | some rest => go n rest
      | none => s

/-- The version of a tag, as it is shown. -/
def trimTag (tag : String) : String :=
  String.ofList (trimStartMatches "v".toList
    (trimStartMatches "host-utility-v".toList tag.toList))

/-- What is known of a binary. -/
def binaryInfo (checksums : List (String × String)) (asset : GitHubAsset) : BinaryInfo where
  filename := asset.name
  sha256 := (checksums.lookup asset.name).getD ""
  sizeBytes := asset.size
  downloadUrl := asset.browserDownloadUrl

/-- What is known of an image. -/
def imageInfo (checksums signatures : List (String × String)) (asset : GitHubAsset) :
    ReleaseImageInfo where
  filename := asset.name
  sha256 := (checksums.lookup asset.name).getD ""
  sizeBytes := 0
  compressedSizeBytes := asset.size
  minSdSizeGb := 8
  downloadUrl := asset.browserDownloadUrl
  signature := signatures.lookup asset.name

/-- What an asset adds to the maps. -/
def addAsset (checksums signatures : List (String × String)) (info : VersionInfo)
    (asset : GitHubAsset) : VersionInfo :=
  if asset.name = "russignol-amd64" then
    { info with binaries := ("amd64", binaryInfo checksums asset) :: info.binaries }
  else if asset.name = "russignol-aarch64" then
    { info with binaries := ("aarch64", binaryInfo checksums asset) :: info.binaries }
  else if asset.name = imageAsset then
    { info with images := ("pi-zero", imageInfo checksums signatures asset) :: info.images }
  else info

/-- `build_version_info`. -/
def buildVersionInfo (release : GitHubRelease) (checksums signatures : List (String × String)) :
    VersionInfo :=
  release.assets.foldl (addAsset checksums signatures)
    { version := trimTag release.tagName
      releaseDate := String.ofList (release.publishedAt.toList.takeWhile (· ≠ 'T'))
      binaries := []
      images := [] }

/-- `fetch_latest_version`. -/
def fetchLatestVersion (web : Web) (includePrerelease : Bool) (required : RequiredAsset) :
    Except String VersionInfo := do
  let releases ← web.releases
  match selectLatestRelease releases includePrerelease required with
  | none => throw "No matching release found"
  | some release =>
    return buildVersionInfo release (fetchChecksums web release.assets)
      (fetchSignatures web release.assets)

/-- `is_newer`. -/
def isNewer (current latest : String) : Except String Bool :=
  match Semver.parse current with
  | none => .error ("Failed to parse current version: " ++ current)
  | some currentVersion =>
    match Semver.parse latest with
    | none => .error ("Failed to parse latest version: " ++ latest)
    | some latestVersion => .ok (decide (currentVersion < latestVersion))

omit [Semver] in
/-- `get_download_url`. -/
def getDownloadUrl (info : VersionInfo) (arch : String) : Except String String :=
  match info.binaries.lookup arch with
  | some binary => .ok binary.downloadUrl
  | none => .error ("No binary available for architecture: " ++ arch)

omit [Semver] in
/-- `get_image_download_url`. -/
def getImageDownloadUrl (info : VersionInfo) (target : String) : Except String String :=
  match info.images.lookup target with
  | some image => .ok image.downloadUrl
  | none => .error ("No image available for target: " ++ target)

/-! ## The two readings of a tag -/

omit [Semver] in
/-- A text that does not begin with a pattern keeps its start. -/
theorem trimStartMatches_of_none {pattern s : List Char} (h : s.dropPrefix? pattern = none) :
    trimStartMatches pattern s = s := by
  unfold trimStartMatches
  cases s.length with
  | zero => rfl
  | succ n => rw [trimStartMatches.go, h]

omit [Semver] in
/-- A pattern that stands at the start once is taken off. -/
theorem trimStartMatches_append {pattern rest : List Char} (hpattern : pattern ≠ [])
    (h : rest.dropPrefix? pattern = none) :
    trimStartMatches pattern (pattern ++ rest) = rest := by
  have hfirst : (pattern ++ rest).dropPrefix? pattern = some rest :=
    List.dropPrefix?_append_of_beq rest (beq_self_eq_true pattern)
  have hgo : ∀ n, trimStartMatches.go pattern n rest = rest := by
    intro n
    cases n with
    | zero => rfl
    | succ n => rw [trimStartMatches.go, h]
  have hlen : (pattern ++ rest).length = (pattern ++ rest).length - 1 + 1 := by
    have hpos := List.length_pos_iff.2 hpattern
    rw [List.length_append]
    omega
  rw [trimStartMatches, hlen, trimStartMatches.go, hfirst]
  exact hgo _

omit [Semver] in
/-- A text that begins with a digit does not begin with a pattern that begins with a `v` or an
`h`. -/
theorem dropPrefix?_of_digit {c d : Char} {rest pattern : List Char} (hc : c.isDigit = true)
    (hd : d.isDigit = false) : (c :: rest).dropPrefix? (d :: pattern) = none := by
  have hne : c ≠ d := by
    rintro rfl
    exact absurd hc (by rw [hd]; exact Bool.false_ne_true)
  rw [List.dropPrefix?, beq_false_of_ne hne]
  rfl

/-- **The tag is read twice alike**: the version that is shown is the one that was compared. -/
theorem parse_trimTag [LawfulSemver] {tag : String} {v : Semver.Version}
    (h : parseTagVersion tag = some v) : Semver.parse (trimTag tag) = some v := by
  obtain ⟨version, hversion, hparse⟩ := Option.bind_eq_some_iff.1 h
  obtain ⟨c, rest, hdigits, hc⟩ := LawfulSemver.parse_digit hparse
  rw [String.toList_ofList] at hdigits
  have hnotHost : version.dropPrefix? "host-utility-v".toList = none :=
    hdigits ▸ dropPrefix?_of_digit (d := 'h') hc rfl
  have hnotV : version.dropPrefix? "v".toList = none :=
    hdigits ▸ dropPrefix?_of_digit (d := 'v') hc rfl
  have hstrip : ∀ pattern, tag.toList.dropPrefix? pattern = some version →
      tag.toList = pattern ++ version := by
    intro pattern hdrop
    obtain ⟨pattern', htag, heq⟩ := List.dropPrefix?_eq_some_iff.1 hdrop
    rw [htag, eq_of_beq heq]
  suffices htrim : trimStartMatches "v".toList
      (trimStartMatches "host-utility-v".toList tag.toList) = version by
    rw [trimTag, htrim]
    exact hparse
  rcases hhost : tag.toList.dropPrefix? "host-utility-v".toList with _ | version'
  · rw [hhost, Option.none_or] at hversion
    rw [trimStartMatches_of_none hhost, hstrip _ hversion]
    exact trimStartMatches_append (by decide) hnotV
  · rw [hhost, Option.some_or, Option.some.injEq] at hversion
    subst hversion
    rw [hstrip _ hhost, trimStartMatches_append (by decide) hnotHost]
    exact trimStartMatches_of_none hnotV

/-! ## The latest candidate -/

/-- The last of the greatest is among the pairs, and none is greater. -/
theorem maxByVersion_spec {α : Type} {ps : List (Semver.Version × α)} {p : Semver.Version × α}
    (h : maxByVersion ps = some p) : p ∈ ps ∧ ∀ q ∈ ps, q.1 ≤ p.1 := by
  have hfold : ∀ (qs : List (Semver.Version × α)) (x : Semver.Version × α),
      let y := qs.foldl (fun x y => if y.1 < x.1 then x else y) x
      (y = x ∨ y ∈ qs) ∧ x.1 ≤ y.1 ∧ ∀ q ∈ qs, q.1 ≤ y.1 := by
    intro qs
    induction qs with
    | nil => exact fun x => ⟨.inl rfl, le_rfl, fun q hq => absurd hq List.not_mem_nil⟩
    | cons q qs ih =>
      intro x
      rw [List.foldl_cons]
      obtain ⟨hmem, hfirst, hall⟩ := ih (if q.1 < x.1 then x else q)
      have hstep : x.1 ≤ (if q.1 < x.1 then x else q).1 ∧
          q.1 ≤ (if q.1 < x.1 then x else q).1 := by
        split
        · rename_i hlt
          exact ⟨le_rfl, hlt.le⟩
        · rename_i hge
          exact ⟨not_lt.1 hge, le_rfl⟩
      refine ⟨?_, hstep.1.trans hfirst, ?_⟩
      · rcases hmem with hmem | hmem
        · rw [hmem]
          split
          · exact .inl rfl
          · exact .inr List.mem_cons_self
        · exact .inr (List.mem_cons_of_mem _ hmem)
      · intro q' hq'
        rcases List.mem_cons.1 hq' with rfl | hq'
        · exact hstep.2.trans hfirst
        · exact hall q' hq'
  cases ps with
  | nil => cases h
  | cons p' ps =>
    cases h
    obtain ⟨hmem, hfirst, hall⟩ := hfold ps p'
    exact ⟨List.mem_cons.2 hmem, fun q hq => (List.mem_cons.1 hq).elim (fun hq => hq ▸ hfirst)
      (hall q)⟩

/-- A release is the latest: it is a candidate, and no candidate has a greater version. -/
structure Latest (releases : List GitHubRelease) (includePrerelease : Bool)
    (required : RequiredAsset) (release : GitHubRelease) (v : Semver.Version) : Prop where
  eligible : release ∈ eligible releases includePrerelease required
  version : parseTagVersion release.tagName = some v
  greatest : ∀ r ∈ Host.eligible releases includePrerelease required, ∀ v',
    parseTagVersion r.tagName = some v' → v' ≤ v

/-- **The release that is selected is the latest**; the candidates that were not compared are those
that are warned of. -/
theorem selectLatestRelease_spec {releases : List GitHubRelease} {includePrerelease : Bool}
    {required : RequiredAsset} {release : GitHubRelease}
    (h : selectLatestRelease releases includePrerelease required = some release) :
    (∃ v, Latest releases includePrerelease required release v) ∧
      ∀ r ∈ eligible releases includePrerelease required, parseTagVersion r.tagName = none →
        r.tagName ∈ unparsedCandidateTags releases includePrerelease required := by
  refine ⟨?_, fun r hr hnone => List.mem_map.2 ⟨r, List.mem_filter.2 ⟨hr, by rw [hnone]; rfl⟩, rfl⟩⟩
  obtain ⟨⟨v, r⟩, hmax, rfl⟩ := Option.map_eq_some_iff.1 h
  obtain ⟨hmem, hgreatest⟩ := maxByVersion_spec hmax
  obtain ⟨r', hr', hpair⟩ := List.mem_filterMap.1 hmem
  obtain ⟨v', hv', hpair⟩ := Option.map_eq_some_iff.1 hpair
  cases hpair
  refine ⟨v, hr', hv', fun q hq w hw => ?_⟩
  exact hgreatest (w, q) (List.mem_filterMap.2 ⟨q, hq, by rw [hw]; rfl⟩)

/-! ## What is known of the assets -/

omit [Semver] in
/-- The version and the date are those of the release. -/
theorem buildVersionInfo_version (release : GitHubRelease)
    (checksums signatures : List (String × String)) :
    (buildVersionInfo release checksums signatures).version = trimTag release.tagName := by
  have hadd : ∀ (info : VersionInfo) (a : GitHubAsset),
      (addAsset checksums signatures info a).version = info.version := by
    intro info a
    unfold addAsset
    repeat' split
    all_goals rfl
  have hfold : ∀ (assets : List GitHubAsset) (info : VersionInfo),
      (assets.foldl (addAsset checksums signatures) info).version = info.version := by
    intro assets
    induction assets with
    | nil => exact fun _ => rfl
    | cons a assets ih => exact fun info => (ih _).trans (hadd info a)
  exact hfold _ _

omit [Semver] in
/-- The image that is known is the last asset of its name. -/
theorem buildVersionInfo_image (release : GitHubRelease)
    (checksums signatures : List (String × String)) :
    (buildVersionInfo release checksums signatures).images.lookup "pi-zero" =
      (release.assets.reverse.find? (·.name == imageAsset)).map
        (imageInfo checksums signatures) := by
  have hfold : ∀ (assets : List GitHubAsset) (info : VersionInfo),
      (assets.foldl (addAsset checksums signatures) info).images.lookup "pi-zero" =
        ((assets.reverse.find? (·.name == imageAsset)).map (imageInfo checksums signatures)).or
          (info.images.lookup "pi-zero") := by
    intro assets
    induction assets with
    | nil => exact fun _ => rfl
    | cons a assets ih =>
      intro info
      rw [List.foldl_cons, ih, List.reverse_cons, List.find?_append]
      have hadd : (addAsset checksums signatures info a).images.lookup "pi-zero" =
          (if a.name = imageAsset then some (imageInfo checksums signatures a)
            else info.images.lookup "pi-zero") := by
        unfold addAsset
        split
        · rename_i hname
          rw [if_neg (by rw [hname]; decide)]
        · split
          · rename_i hname
            rw [if_neg (by rw [hname]; decide)]
          · split
            · rfl
            · rfl
      rw [hadd]
      by_cases hname : a.name = imageAsset
      · rw [if_pos hname, List.find?_cons_of_pos (by simpa using hname)]
        cases assets.reverse.find? (·.name == imageAsset) <;> rfl
      · rw [if_neg hname, List.find?_cons_of_neg (by simpa using hname)]
        cases assets.reverse.find? (·.name == imageAsset) <;> rfl
  rw [buildVersionInfo, hfold]
  exact Option.or_none

/-- The asset of an architecture. -/
def binaryAsset (arch : String) : String := "russignol-" ++ arch

omit [Semver] in
/-- A binary that is known is an asset of its architecture. -/
theorem mem_binaries {release : GitHubRelease} {checksums signatures : List (String × String)}
    {arch : String} {binary : BinaryInfo}
    (h : (buildVersionInfo release checksums signatures).binaries.lookup arch = some binary) :
    ∃ a ∈ release.assets, a.name = binaryAsset arch ∧ binary = binaryInfo checksums a := by
  have hfold : ∀ (assets : List GitHubAsset) (info : VersionInfo),
      (∀ p ∈ info.binaries, ∃ a ∈ release.assets, a.name = binaryAsset p.1 ∧
        p.2 = binaryInfo checksums a) → assets ⊆ release.assets →
      ∀ p ∈ (assets.foldl (addAsset checksums signatures) info).binaries,
        ∃ a ∈ release.assets, a.name = binaryAsset p.1 ∧ p.2 = binaryInfo checksums a := by
    intro assets
    induction assets with
    | nil => exact fun _ hinfo _ => hinfo
    | cons a assets ih =>
      intro info hinfo hsub
      obtain ⟨ha, hsub⟩ := List.cons_subset.1 hsub
      refine ih _ (fun p hp => ?_) hsub
      unfold addAsset at hp
      split at hp
      · rename_i hname
        rcases List.mem_cons.1 hp with rfl | hp
        · exact ⟨a, ha, hname, rfl⟩
        · exact hinfo p hp
      · split at hp
        · rename_i hname
          rcases List.mem_cons.1 hp with rfl | hp
          · exact ⟨a, ha, hname, rfl⟩
          · exact hinfo p hp
        · split at hp <;> exact hinfo p hp
  obtain ⟨before, after, hbinaries, -⟩ := List.lookup_eq_some_iff.1 h
  have hmem : (arch, binary) ∈ (buildVersionInfo release checksums signatures).binaries :=
    hbinaries ▸ List.mem_append_right _ List.mem_cons_self
  refine hfold release.assets _ ?_ (List.Subset.refl _) _ hmem
  intro p hp
  cases hp

/-- **What is fetched** is the latest candidate, under its version, with what its own
`checksums.txt` and signatures say of its assets. -/
theorem fetchLatestVersion_spec [LawfulSemver] {web : Web} {includePrerelease : Bool}
    {required : RequiredAsset} {info : VersionInfo}
    (h : fetchLatestVersion web includePrerelease required = .ok info) :
    ∃ releases release v, web.releases = .ok releases ∧
      Latest releases includePrerelease required release v ∧
      Semver.parse info.version = some v ∧
      info = buildVersionInfo release (fetchChecksums web release.assets)
        (fetchSignatures web release.assets) := by
  unfold fetchLatestVersion at h
  cases hreleases : web.releases with
  | error e =>
    rw [hreleases] at h
    cases h
  | ok releases =>
    rw [hreleases] at h
    change (match selectLatestRelease releases includePrerelease required with
      | none => _
      | some release => _) = _ at h
    cases hselect : selectLatestRelease releases includePrerelease required with
    | none =>
      rw [hselect] at h
      cases h
    | some release =>
      rw [hselect] at h
      cases h
      obtain ⟨⟨v, hlatest⟩, -⟩ := selectLatestRelease_spec hselect
      refine ⟨releases, release, v, rfl, hlatest, ?_, rfl⟩
      rw [buildVersionInfo_version]
      exact parse_trimTag hlatest.version

end

/-! ## Version numbers to evaluate -/

/-- Versions of three numbers below a thousand. -/
@[reducible] def plainSemver : Semver where
  Version := Nat
  order := inferInstance
  parse s := do
    let number (digits : List Char) := Nat.ofDigitChars 10 digits 0
    let (major, rest) ← TextCodec.splitOnce ['.'] s.toList
    let (minor, patch) ← TextCodec.splitOnce ['.'] rest
    if (s.toList.head?.any Char.isDigit) then
      some ((number major * 1000 + number minor) * 1000 + number patch)
    else none

theorem plainSemver_lawful : @LawfulSemver plainSemver := by
  refine @LawfulSemver.mk plainSemver fun {s v} h => ?_
  obtain ⟨⟨major, rest⟩, -, h⟩ := Option.bind_eq_some_iff.1 h
  obtain ⟨⟨minor, patch⟩, -, h⟩ := Option.bind_eq_some_iff.1 h
  dsimp only at h
  split at h
  · rename_i hdigit
    cases hs : s.toList with
    | nil =>
      rw [hs] at hdigit
      cases hdigit
    | cons c rest =>
      rw [hs] at hdigit
      exact ⟨c, rest, rfl, hdigit⟩
  · cases h

end Host

end Russignol
