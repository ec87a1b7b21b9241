import Mathlib.Algebra.Order.Group.Int
import Mathlib.Data.List.Sort
import Russignol.Host.MigrateKeys
import Russignol.Host.WatermarkConfig

/-!
# The swap window

`calculate_optimal_swap_window` of `host-utility/src/rotate_keys.rs`: of the first levels of a cycle,
the longest stretch without an own baking slot of round 0 is recommended to swap the keys in. The
stretch before the first slot and those between two slots are compared, not the one behind the last
slot, nor a range without any slot: `swap_window_best_iff` says when the window is the best.

The numbers are 64 bits wide (`wrapI64`). The node is an input.
-/

namespace Russignol.Host

/-! ## The calculation -/

/-- An integer in 64 bits. -/
def wrapI64 (x : Int) : Int := x.bmod (2 ^ 64)

/-- An `s`, but for one. -/
def plural (n : Int) : String := if n = 1 then "" else "s"

/-- `format_time_estimate`. -/
def formatTimeEstimate (blocksAway : Int) (minimalBlockDelay : Option Int) : String :=
  match minimalBlockDelay with
  | none => toString blocksAway ++ " blocks (time unknown)"
  | some blockDelaySeconds =>
    let seconds := wrapI64 (blocksAway * blockDelaySeconds)
    if seconds < 60 then "~" ++ toString seconds ++ " seconds"
    else if seconds < 3600 then
      let minutes := seconds / 60
      "~" ++ toString minutes ++ " minute" ++ plural minutes
    else
      let hours := seconds / 3600
      let minutes := seconds % 3600 / 60
      if minutes > 0 then
        "~" ++ toString hours ++ " hour" ++ plural hours ++ " " ++ toString minutes ++ " minute" ++
          plural minutes
      else "~" ++ toString hours ++ " hour" ++ plural hours

/-- `SwapWindow`. -/
structure SwapWindow where
  startBlock : Int
  endBlock : Int
  durationEstimate : String
  warning : Option String
  deriving DecidableEq, Repr

/-- The levels that the own slots of round 0 are at, in the order of the reply. -/
def ownSlots (delegate : String) (rights : Json) : List Int :=
  (rights.asArr.getD []).filterMap fun right =>
    if strMember right "delegate" = some delegate ∧ getI64 right "round" = some 0 then
      getI64 right "level"
    else none

/-- The least length of a gap, in blocks. -/
def minGapBlocks : Int := 30

/-- The best gap so far, and its size. -/
abbrev BestGap := Option (Int × Int) × Int

/-- A gap is better than the best so far. -/
def considerGap (best : BestGap) (lo hi size : Int) : BestGap :=
  if size ≥ minGapBlocks ∧ size > best.2 then (some (lo, hi), size) else best

/-- The gap before the first slot. -/
def considerFirst (cycleStartLevel : Int) (slots : List Int) (best : BestGap) : BestGap :=
  match slots with
  | [] => best
  | first :: _ => considerGap best cycleStartLevel (first - 1) (wrapI64 (first - cycleStartLevel))

/-- The gap between two slots. -/
def considerBetween (best : BestGap) (pair : Int × Int) : BestGap :=
  considerGap best (pair.1 + 1) (pair.2 - 1) (wrapI64 (pair.2 - pair.1))

/-- The largest gap, of the slots in order. -/
def largestGap (cycleStartLevel : Int) (slots : List Int) : BestGap :=
  (slots.zip slots.tail).foldl considerBetween (considerFirst cycleStartLevel slots (none, 0))

/-- The warning where there is none. -/
def noLargeGap : String :=
  "No large gap found between baking rights. Consider swapping right at cycle start."

/-- The first level of a cycle. -/
def cycleStart (activationCycle blocksPerCycle : Int) : Int :=
  wrapI64 (activationCycle * blocksPerCycle)

/-- The level before which rights are asked for. -/
def queryEnd (activationCycle blocksPerCycle : Int) : Int :=
  min (wrapI64 (cycleStart activationCycle blocksPerCycle + 100))
    (wrapI64 (cycleStart activationCycle blocksPerCycle + blocksPerCycle))

/-- `calculate_optimal_swap_window`, of the constants and of the rights that the node returns for the
levels from one on and below another. -/
def calculateOptimalSwapWindow (delegate : String) (activationCycle : Int)
    (blocksPerCycle minimalBlockDelay : Option Int) (bakingRights : Int → Int → Except String Json) :
    Except String (Option SwapWindow) :=
  match blocksPerCycle with
  | none => .error "Failed to get blocks_per_cycle"
  | some blocksPerCycle =>
    let minimalBlockDelay := minimalBlockDelay.getD 10
    let cycleStartLevel := cycleStart activationCycle blocksPerCycle
    match bakingRights cycleStartLevel (queryEnd activationCycle blocksPerCycle) with
    | .error _ => .ok none
    | .ok rights =>
      let slots := (ownSlots delegate rights).mergeSort
      match (largestGap cycleStartLevel slots).1 with
      | some (start, stop) => .ok (some {
          startBlock := start
          endBlock := stop
          durationEstimate := formatTimeEstimate (wrapI64 (stop - start)) (some minimalBlockDelay)
          warning := if slots.isEmpty then none else
            some ("You have " ++ toString slots.length ++
              " round 0 baking slots in first 100 blocks of cycle " ++ toString activationCycle) })
      | none => .ok (some {
          startBlock := cycleStartLevel
          endBlock := wrapI64 (cycleStartLevel + minGapBlocks)
          durationEstimate := formatTimeEstimate minGapBlocks (some minimalBlockDelay)
          warning := some noLargeGap })

/-! ## Stretches -/

/-- The levels from one to another are in a range, and none of them is a slot. -/
structure Free (start stop : Int) (slots : List Int) (lo hi : Int) : Prop where
  lower : start ≤ lo
  upper : hi < stop
  clear : ∀ s ∈ slots, s < lo ∨ hi < s

/-- A stretch that is long enough. -/
def SafeStretch (start stop : Int) (slots : List Int) (lo hi : Int) : Prop :=
  Free start stop slots lo hi ∧ minGapBlocks ≤ hi - lo + 1

/-- The window is the longest safe stretch, if there is one, and the warning that there is none
is not given then. -/
structure SwapWindow.Best (start stop : Int) (slots : List Int) (w : SwapWindow) : Prop where
  longest : (∃ lo hi, SafeStretch start stop slots lo hi) →
    Free start stop slots w.startBlock w.endBlock ∧
      ∀ lo hi, SafeStretch start stop slots lo hi → hi - lo ≤ w.endBlock - w.startBlock
  warned : w.warning = some noLargeGap → ¬∃ lo hi, SafeStretch start stop slots lo hi

/-- The level behind the last slot. -/
def tailStart (start : Int) (slots : List Int) : Int := (slots.max?.map (· + 1)).getD start

/-- The stretch behind the last slot is short, or no longer than one before the last slot. -/
def TailCovered (start stop : Int) (slots : List Int) : Prop :=
  stop - tailStart start slots < minGapBlocks ∨
    ∃ lo hi, Free start stop slots lo hi ∧ (∃ s ∈ slots, hi < s) ∧
      stop - tailStart start slots ≤ hi - lo + 1

section
variable {start stop : Int} {slots : List Int}

/-- Behind the last slot are no slots. -/
theorem lt_tailStart {s : Int} (hs : s ∈ slots) : s < tailStart start slots := by
  obtain ⟨m, hm⟩ : ∃ m, slots.max? = some m :=
    Option.isSome_iff_exists.mp (List.isSome_max?_of_mem hs)
  have hle := (List.max?_eq_some_iff.mp hm).2 s hs
  rw [tailStart, hm]
  exact Int.lt_add_one_of_le hle

/-- The stretch behind the last slot starts at one or at the start of the range. -/
theorem tailStart_le {x : Int} (hstart : start ≤ x) (h : ∀ s ∈ slots, s < x) :
    tailStart start slots ≤ x := by
  rw [tailStart]
  cases hm : slots.max? with
  | none => exact hstart
  | some m => exact h m (List.max?_eq_some_iff.mp hm).1

/-- The stretch behind the last slot. -/
theorem free_tail (hrange : ∀ s ∈ slots, start ≤ s) :
    Free start stop slots (tailStart start slots) (stop - 1) where
  lower := by
    rw [tailStart]
    cases hm : slots.max? with
    | none => exact Int.le_refl _
    | some m =>
      have := hrange m (List.max?_eq_some_iff.mp hm).1
      exact Int.le_trans this (Int.le_add_one (Int.le_refl m))
  upper := Int.sub_one_lt_of_le (Int.le_refl _)
  clear s hs := .inl (lt_tailStart hs)

/-- A stretch is before the last slot, or behind it. -/
theorem Free.earlier_or_tail {lo hi : Int} (h : Free start stop slots lo hi) :
    (∃ s ∈ slots, hi < s) ∨ tailStart start slots ≤ lo := by
  by_cases hearlier : ∃ s ∈ slots, hi < s
  · exact .inl hearlier
  · refine .inr (tailStart_le h.lower fun s hs => ?_)
    rcases h.clear s hs with hlt | hlt
    · exact hlt
    · exact absurd ⟨s, hs, hlt⟩ hearlier

/-! ## The gaps that are compared -/

/-- A gap, by the window it gives and the size it is compared by. -/
structure Gap where
  lo : Int
  hi : Int
  size : Int

/-- The best of some gaps is the one before them, or one of them that is larger. -/
theorem foldl_considerGap : ∀ (gaps : List Gap) (best : BestGap),
    (gaps.foldl (fun best g => considerGap best g.lo g.hi g.size) best = best ∧
      ∀ g ∈ gaps, g.size < minGapBlocks ∨ g.size ≤ best.2) ∨
    ∃ g ∈ gaps, gaps.foldl (fun best g => considerGap best g.lo g.hi g.size) best =
        (some (g.lo, g.hi), g.size) ∧ minGapBlocks ≤ g.size ∧ best.2 < g.size ∧
      ∀ g' ∈ gaps, g'.size < minGapBlocks ∨ g'.size ≤ g.size
  | [], best => .inl ⟨rfl, fun _ h => absurd h List.not_mem_nil⟩
  | g :: gaps, best => by
    rw [List.foldl_cons]
    by_cases hbetter : g.size ≥ minGapBlocks ∧ g.size > best.2
    · rw [considerGap, if_pos hbetter]
      obtain ⟨hsize, hlt⟩ := hbetter
      rcases foldl_considerGap gaps (some (g.lo, g.hi), g.size) with
        ⟨hsame, hrest⟩ | ⟨g', hg', hbest, hmin, hgt, hrest⟩
      · refine .inr ⟨g, List.mem_cons_self, hsame, hsize, hlt, fun g' hg' => ?_⟩
        rcases List.mem_cons.mp hg' with rfl | hg'
        · exact .inr (Int.le_refl _)
        · exact hrest g' hg'
      · have hgt' : g.size < g'.size := hgt
        refine .inr ⟨g', List.mem_cons_of_mem _ hg', hbest, hmin, by omega, fun g'' hg'' => ?_⟩
        rcases List.mem_cons.mp hg'' with rfl | hg''
        · exact .inr (by omega)
        · exact hrest g'' hg''
    · rw [considerGap, if_neg hbetter]
      rcases foldl_considerGap gaps best with
        ⟨hsame, hrest⟩ | ⟨g', hg', hbest, hmin, hgt, hrest⟩
      · refine .inl ⟨hsame, fun g' hg' => ?_⟩
        rcases List.mem_cons.mp hg' with rfl | hg'
        · omega
        · exact hrest g' hg'
      · refine .inr ⟨g', List.mem_cons_of_mem _ hg', hbest, hmin, hgt, fun g'' hg'' => ?_⟩
        rcases List.mem_cons.mp hg'' with rfl | hg''
        · omega
        · exact hrest g'' hg''

/-- Two neighbours of a list in order have no member between them. -/
theorem zip_tail_clear : ∀ {slots : List Int}, slots.Pairwise (· ≤ ·) →
    ∀ p ∈ slots.zip slots.tail, p.1 ∈ slots ∧ p.2 ∈ slots ∧ p.1 ≤ p.2 ∧
      ∀ s ∈ slots, s ≤ p.1 ∨ p.2 ≤ s
  | [], _, p, hp => absurd hp (by simp)
  | [_], _, p, hp => absurd hp (by simp)
  | a :: b :: slots, hsorted, p, hp => by
    obtain ⟨ha, hsorted⟩ := List.pairwise_cons.mp hsorted
    rw [List.tail_cons, List.zip_cons_cons, List.mem_cons] at hp
    rcases hp with rfl | hp
    · refine ⟨by simp, by simp, ha b (by simp), fun s hs => ?_⟩
      rcases List.mem_cons.mp hs with rfl | hs
      · exact .inl (Int.le_refl _)
      · rcases List.mem_cons.mp hs with rfl | hs
        · exact .inr (Int.le_refl _)
        · exact .inr ((List.pairwise_cons.mp hsorted).1 s hs)
    · obtain ⟨hp₁, hp₂, hle, hclear⟩ := zip_tail_clear hsorted p hp
      refine ⟨List.mem_cons_of_mem _ hp₁, List.mem_cons_of_mem _ hp₂, hle, fun s hs => ?_⟩
      rcases List.mem_cons.mp hs with rfl | hs
      · exact .inl (ha p.1 hp₁)
      · exact hclear s hs

/-- A stretch behind one slot and before another lies between two neighbours. -/
theorem exists_zip_tail {lo hi : Int} (hle : lo ≤ hi) : ∀ {a : Int} {slots : List Int},
    (a :: slots).Pairwise (· ≤ ·) → a < lo → (∀ s ∈ slots, s < lo ∨ hi < s) →
      (∃ s ∈ slots, hi < s) → ∃ p ∈ (a :: slots).zip slots, p.1 < lo ∧ hi < p.2
  | a, [], _, _, _, ⟨s, hs, _⟩ => absurd hs List.not_mem_nil
  | a, b :: slots, hsorted, hlo, hclear, hlater => by
    obtain ⟨-, hsorted⟩ := List.pairwise_cons.mp hsorted
    rcases hclear b List.mem_cons_self with hb | hb
    · have hlater' : ∃ s ∈ slots, hi < s := by
        obtain ⟨s, hs, hlt⟩ := hlater
        rcases List.mem_cons.mp hs with rfl | hs
        · omega
        · exact ⟨s, hs, hlt⟩
      obtain ⟨p, hp, hbounds⟩ := exists_zip_tail hle hsorted hb
        (fun s hs => hclear s (List.mem_cons_of_mem _ hs)) hlater'
      exact ⟨p, List.mem_cons_of_mem _ hp, hbounds⟩
    · exact ⟨(a, b), List.mem_cons_self, hlo, hb⟩

/-- A number of 64 bits is itself. -/
theorem wrapI64_of_le {x : Int} (hlo : -2 ^ 63 ≤ x) (hhi : x < 2 ^ 63) : wrapI64 x = x := by
  rw [wrapI64]
  exact Int.bmod_eq_of_le (by omega) (by omega)

/-- Wrapping around from above only lowers. -/
theorem wrapI64_le {x : Int} (h : -2 ^ 63 ≤ x) : wrapI64 x ≤ x := by
  rw [wrapI64, Int.bmod]
  split <;> omega

/-- The gap between two neighbours. -/
def Gap.between (p : Int × Int) : Gap := ⟨p.1 + 1, p.2 - 1, p.2 - p.1⟩

/-- The gaps between some slots. -/
def gapsBetween (slots : List Int) : List Gap := (slots.zip slots.tail).map Gap.between

/-- A gap between two slots is free, and before the last of them. -/
theorem free_between (hsorted : slots.Pairwise (· ≤ ·))
    (hrange : ∀ s ∈ slots, start ≤ s ∧ s < stop) {g : Gap} (hg : g ∈ gapsBetween slots) :
    Free start stop slots g.lo g.hi ∧ (∃ s ∈ slots, g.hi < s) ∧ g.size = g.hi - g.lo + 2 := by
  obtain ⟨p, hp, rfl⟩ := List.mem_map.mp hg
  obtain ⟨hp₁, hp₂, hle, hclear⟩ := zip_tail_clear hsorted p hp
  have hlower := (hrange p.1 hp₁).1
  have hupper := (hrange p.2 hp₂).2
  simp only [Gap.between]
  refine ⟨⟨by omega, by omega, fun s hs => ?_⟩, ⟨p.2, hp₂, by omega⟩, by omega⟩
  rcases hclear s hs with h | h
  · exact .inl (by omega)
  · exact .inr (by omega)

/-- A stretch before the last slot is before the first one, or in a gap between two. -/
theorem Free.before_or_between {lo hi first : Int} {rest : List Int}
    (h : Free start stop (first :: rest) lo hi) (hsorted : (first :: rest).Pairwise (· ≤ ·))
    (hle : lo ≤ hi) (hearlier : ∃ s ∈ first :: rest, hi < s) :
    hi < first ∨ ∃ g ∈ gapsBetween (first :: rest), hi - lo + 2 ≤ g.size := by
  obtain ⟨s, hs, hlt⟩ := hearlier
  rcases h.clear first List.mem_cons_self with hbefore | hbefore
  · have hlater : ∃ s ∈ rest, hi < s := by
      rcases List.mem_cons.mp hs with rfl | hs
      · omega
      · exact ⟨s, hs, hlt⟩
    obtain ⟨p, hp, hplo, hphi⟩ := exists_zip_tail hle hsorted hbefore
      (fun s hs => h.clear s (List.mem_cons_of_mem _ hs)) hlater
    refine .inr ⟨Gap.between p, List.mem_map_of_mem hp, ?_⟩
    simp only [Gap.between]
    omega
  · exact .inl hbefore

/-- The largest gap is the one before the first slot, or one of those between two. -/
theorem largestGap_cons {first : Int} {rest : List Int}
    (hsorted : (first :: rest).Pairwise (· ≤ ·))
    (hrange : ∀ s ∈ first :: rest, start ≤ s ∧ s < stop) (hstop : stop ≤ start + 100) :
    largestGap start (first :: rest) = (gapsBetween (first :: rest)).foldl
      (fun best g => considerGap best g.lo g.hi g.size)
      (if minGapBlocks ≤ first - start then (some (start, first - 1), first - start)
        else (none, 0)) := by
  have hfirst := hrange first List.mem_cons_self
  have hlead : considerGap (none, 0) start (first - 1) (first - start) =
      if minGapBlocks ≤ first - start then (some (start, first - 1), first - start)
      else (none, 0) := by
    rw [considerGap]
    refine if_congr ⟨fun h => h.1, fun h => ⟨h, ?_⟩⟩ rfl rfl
    rw [minGapBlocks] at h
    exact Int.lt_of_lt_of_le (by decide) h
  rw [largestGap, considerFirst, wrapI64_of_le (by omega) (by omega), hlead, gapsBetween,
    List.foldl_map]
  refine List.foldl_ext _ _ _ fun best p hp => ?_
  obtain ⟨hp₁, hp₂, hle, -⟩ := zip_tail_clear hsorted p hp
  have := hrange p.1 hp₁
  have := hrange p.2 hp₂
  rw [considerBetween, wrapI64_of_le (by omega) (by omega)]
  rfl

/-- **The gap that is found**: the longest stretch before the last slot, if one is long enough. -/
theorem largestGap_spec (hsorted : slots.Pairwise (· ≤ ·))
    (hrange : ∀ s ∈ slots, start ≤ s ∧ s < stop) (hstop : stop ≤ start + 100) :
    match (largestGap start slots).1 with
    | none => ∀ lo hi, Free start stop slots lo hi → (∃ s ∈ slots, hi < s) →
        hi - lo + 1 < minGapBlocks
    | some (lo', hi') => Free start stop slots lo' hi' ∧ (∃ s ∈ slots, hi' < s) ∧
        ∀ lo hi, SafeStretch start stop slots lo hi → (∃ s ∈ slots, hi < s) →
          hi - lo ≤ hi' - lo' := by
  cases slots with
  | nil => exact fun lo hi _ ⟨s, hs, _⟩ => absurd hs List.not_mem_nil
  | cons first rest =>
    have hmin : minGapBlocks = 30 := rfl
    have hfirst := hrange first List.mem_cons_self
    -- what bounds the gaps bounds the stretches before the last slot
    have hbound : ∀ {n : Int}, (∀ g ∈ gapsBetween (first :: rest), g.size < minGapBlocks ∨
        g.size ≤ n) → ∀ {lo hi : Int}, Free start stop (first :: rest) lo hi → lo ≤ hi →
          (∃ s ∈ first :: rest, hi < s) →
            hi < first ∨ hi - lo + 2 < minGapBlocks ∨ hi - lo + 2 ≤ n := by
      intro n hn lo hi hfree hle hearlier
      rcases hfree.before_or_between hsorted hle hearlier with hbefore | ⟨g, hg, hsize⟩
      · exact .inl hbefore
      · rcases hn g hg with h | h
        · exact .inr (.inl (by omega))
        · exact .inr (.inr (by omega))
    rw [largestGap_cons hsorted hrange hstop]
    rcases foldl_considerGap (gapsBetween (first :: rest))
        (if minGapBlocks ≤ first - start then (some (start, first - 1), first - start)
          else (none, 0)) with ⟨hbest, hrest⟩ | ⟨g, hg, hbest, hlong, hgt, hrest⟩
    · rw [hbest]
      by_cases hlead : minGapBlocks ≤ first - start
      · rw [if_pos hlead] at hrest ⊢
        refine ⟨⟨Int.le_refl _, by omega, fun s hs => ?_⟩, ⟨first, List.mem_cons_self, by omega⟩,
          fun lo hi hswap hearlier => ?_⟩
        · rcases List.mem_cons.mp hs with rfl | hs
          · exact .inr (by omega)
          · have := (List.pairwise_cons.mp hsorted).1 s hs
            exact .inr (by omega)
        · have hlower := hswap.1.lower
          have hsafe := hswap.2
          have hcases := hbound hrest hswap.1 (by omega) hearlier
          simp only at hcases ⊢
          omega
      · rw [if_neg hlead] at hrest ⊢
        intro lo hi hfree hearlier
        have hlower := hfree.lower
        by_cases hle : lo ≤ hi
        · have hcases := hbound hrest hfree hle hearlier
          simp only at hcases
          omega
        · omega
    · obtain ⟨hfree, hearlier, hsize⟩ := free_between hsorted hrange hg
      rw [hbest]
      refine ⟨hfree, hearlier, fun lo hi hswap hbefore => ?_⟩
      have hlower := hswap.1.lower
      have hsafe := hswap.2
      have hcases := hbound hrest hswap.1 (by omega) hbefore
      by_cases hlead : minGapBlocks ≤ first - start
      · rw [if_pos hlead] at hgt
        simp only at hgt ⊢
        omega
      · omega

/-- Stretches do not depend on the order of the slots. -/
theorem free_congr {slots' : List Int} (hmem : ∀ s, s ∈ slots' ↔ s ∈ slots) {lo hi : Int} :
    Free start stop slots' lo hi ↔ Free start stop slots lo hi := by
  constructor
  · rintro ⟨hlower, hupper, hclear⟩
    exact ⟨hlower, hupper, fun s hs => hclear s ((hmem s).mpr hs)⟩
  · rintro ⟨hlower, hupper, hclear⟩
    exact ⟨hlower, hupper, fun s hs => hclear s ((hmem s).mp hs)⟩

/-- **When a found gap is the best window**: where the stretch behind the last slot is covered. -/
theorem best_iff_of_gap {w : SwapWindow} (hrange : ∀ s ∈ slots, start ≤ s)
    (hfree : Free start stop slots w.startBlock w.endBlock)
    (hearlier : ∃ s ∈ slots, w.endBlock < s)
    (hlongest : ∀ lo hi, SafeStretch start stop slots lo hi → (∃ s ∈ slots, hi < s) →
      hi - lo ≤ w.endBlock - w.startBlock) (hwarning : w.warning ≠ some noLargeGap) :
    w.Best start stop slots ↔ TailCovered start stop slots := by
  constructor
  · intro hbest
    by_cases hshort : stop - tailStart start slots < minGapBlocks
    · exact .inl hshort
    · have htail : SafeStretch start stop slots (tailStart start slots) (stop - 1) :=
        ⟨free_tail hrange, by omega⟩
      have hle := (hbest.longest ⟨_, _, htail⟩).2 _ _ htail
      exact .inr ⟨w.startBlock, w.endBlock, hfree, hearlier, by omega⟩
  · intro hcovered
    refine ⟨fun _ => ⟨hfree, fun lo hi hswap => ?_⟩, fun h => absurd h hwarning⟩
    rcases hswap.1.earlier_or_tail with hbefore | htail
    · exact hlongest lo hi hswap hbefore
    · have hlen := hswap.2
      have hupper := hswap.1.upper
      rcases hcovered with hshort | ⟨lo', hi', hfree', hearlier', hle⟩
      · omega
      · have := hlongest lo' hi' ⟨hfree', by omega⟩ hearlier'
        omega

/-- **When no gap is the right answer**: where the stretch behind the last slot is covered. -/
theorem best_iff_of_no_gap {w : SwapWindow} (hrange : ∀ s ∈ slots, start ≤ s)
    (hnone : ∀ lo hi, Free start stop slots lo hi → (∃ s ∈ slots, hi < s) →
      hi - lo + 1 < minGapBlocks) (hwarning : w.warning = some noLargeGap) :
    w.Best start stop slots ↔ TailCovered start stop slots := by
  constructor
  · intro hbest
    by_cases hshort : stop - tailStart start slots < minGapBlocks
    · exact .inl hshort
    · have htail : SafeStretch start stop slots (tailStart start slots) (stop - 1) :=
        ⟨free_tail hrange, by omega⟩
      exact absurd ⟨_, _, htail⟩ (hbest.warned hwarning)
  · intro hcovered
    have hno : ¬∃ lo hi, SafeStretch start stop slots lo hi := by
      rintro ⟨lo, hi, hfree, hlen⟩
      rcases hfree.earlier_or_tail with hbefore | htail
      · exact absurd (hnone lo hi hfree hbefore) (by omega)
      · have hupper := hfree.upper
        rcases hcovered with hshort | ⟨lo', hi', hfree', hearlier', hle⟩
        · omega
        · have := hnone lo' hi' hfree' hearlier'
          omega
    exact ⟨fun h => absurd h hno, fun _ => hno⟩

end

/-- What is asked for is at most a hundred levels. -/
theorem queryEnd_le (activationCycle blocksPerCycle : Int) :
    queryEnd activationCycle blocksPerCycle ≤ cycleStart activationCycle blocksPerCycle + 100 := by
  have hlow : -2 ^ 63 ≤ cycleStart activationCycle blocksPerCycle := by
    have := Int.le_bmod (x := activationCycle * blocksPerCycle) (m := 2 ^ 64) (by decide)
    rw [cycleStart, wrapI64]
    omega
  exact Int.le_trans (Int.min_le_left _ _) (wrapI64_le (by omega))

/-- How many slots there are is not the warning that there is no gap. -/
theorem slotsWarning_ne {count : Nat} {cycle : Int} :
    "You have " ++ toString count ++ " round 0 baking slots in first 100 blocks of cycle " ++
      toString cycle ≠ noLargeGap := by
  intro h
  have hhead := congrArg (fun s => s.toList.head?) h
  simp [noLargeGap] at hhead

/-- **When the recommended window is the best**: for every cycle, and whatever slots the node returns
of the levels it is asked for, exactly where the stretch behind the last slot is short, or no longer
than one before the last slot. -/
theorem swap_window_best_iff (delegate : String) (activationCycle blocksPerCycle : Int)
    (minimalBlockDelay : Option Int) (bakingRights : Int → Int → Except String Json) {rights : Json}
    (hrights : bakingRights (cycleStart activationCycle blocksPerCycle)
      (queryEnd activationCycle blocksPerCycle) = .ok rights)
    (hrange : ∀ s ∈ ownSlots delegate rights, cycleStart activationCycle blocksPerCycle ≤ s ∧
      s < queryEnd activationCycle blocksPerCycle) :
    ∃ w, calculateOptimalSwapWindow delegate activationCycle (some blocksPerCycle)
        minimalBlockDelay bakingRights = .ok (some w) ∧
      (w.Best (cycleStart activationCycle blocksPerCycle)
          (queryEnd activationCycle blocksPerCycle) (ownSlots delegate rights) ↔
        TailCovered (cycleStart activationCycle blocksPerCycle)
          (queryEnd activationCycle blocksPerCycle) (ownSlots delegate rights)) := by
  simp only [calculateOptimalSwapWindow, hrights]
  have hmem : ∀ s, s ∈ (ownSlots delegate rights).mergeSort ↔ s ∈ ownSlots delegate rights :=
    fun s => List.mem_mergeSort
  have hsorted : (ownSlots delegate rights).mergeSort.Pairwise (· ≤ ·) := by
    have h := @List.pairwise_mergeSort Int (fun a b => decide (a ≤ b))
      (fun a b c hab hbc => by simp only [decide_eq_true_eq] at *; omega)
      (fun a b => by simp only [Bool.or_eq_true, decide_eq_true_eq]; omega)
      (ownSlots delegate rights)
    simpa only [decide_eq_true_eq] using h
  have hspec := largestGap_spec hsorted (fun s hs => hrange s ((hmem s).mp hs))
    (queryEnd_le activationCycle blocksPerCycle)
  have hlower : ∀ s ∈ ownSlots delegate rights, cycleStart activationCycle blocksPerCycle ≤ s :=
    fun s hs => (hrange s hs).1
  split
  · next lo' hi' hgap =>
    simp only [hgap, free_congr hmem, SafeStretch, hmem] at hspec
    obtain ⟨hfree, hearlier, hlongest⟩ := hspec
    refine ⟨_, rfl, best_iff_of_gap hlower hfree hearlier hlongest ?_⟩
    simp only
    split
    · nofun
    · exact fun h => slotsWarning_ne (Option.some.inj h)
  · next hgap =>
    simp only [hgap, free_congr hmem, hmem] at hspec
    exact ⟨_, rfl, best_iff_of_no_gap hlower hspec rfl⟩

/-- The rights of one delegate at some levels. -/
def rightsAt (levels : List Int) : Json :=
  .arr (levels.map fun level =>
    .obj [("delegate", .str "tz1"), ("level", .num level), ("round", .num 0)])

/-- Two slots, with the longest stretch between them. -/
theorem swap_window_best_between : ∃ w, calculateOptimalSwapWindow "tz1" 1 (some 1000) none
    (fun _ _ => .ok (rightsAt [1080, 1010])) = .ok (some w) ∧
      w.Best 1000 1100 (ownSlots "tz1" (rightsAt [1080, 1010])) := by
  obtain ⟨w, hw, hiff⟩ := swap_window_best_iff "tz1" 1 1000 none
    (fun _ _ => .ok (rightsAt [1080, 1010])) rfl (by decide)
  exact ⟨w, hw, hiff.mpr (.inl (by decide))⟩

/-- **The longest stretch is not seen**: of a hundred levels with one slot at the tenth, the window
that is returned holds the slot, and the warning says that there is no gap. -/
theorem swap_window_not_best : ¬∀ (delegate : String) (activationCycle blocksPerCycle : Int)
    (minimalBlockDelay : Option Int) (bakingRights : Int → Int → Except String Json) (rights : Json),
    0 < blocksPerCycle →
    bakingRights (cycleStart activationCycle blocksPerCycle)
      (queryEnd activationCycle blocksPerCycle) = .ok rights →
    (∀ s ∈ ownSlots delegate rights, cycleStart activationCycle blocksPerCycle ≤ s ∧
      s < queryEnd activationCycle blocksPerCycle) →
    ∃ w, calculateOptimalSwapWindow delegate activationCycle (some blocksPerCycle)
        minimalBlockDelay bakingRights = .ok (some w) ∧
      w.Best (cycleStart activationCycle blocksPerCycle)
        (queryEnd activationCycle blocksPerCycle) (ownSlots delegate rights) := by
  intro hall
  obtain ⟨w, hw, hbest⟩ := hall "tz1" 1 1000 none (fun _ _ => .ok (rightsAt [1010])) _ (by decide)
    rfl (by decide)
  have hslots : ownSlots "tz1" (rightsAt [1010]) = [1010] := by decide
  have hwarning : w.warning = some noLargeGap := by
    simp only [calculateOptimalSwapWindow, hslots, List.mergeSort_singleton] at hw
    cases hw
    rfl
  refine hbest.warned hwarning ⟨1011, 1099, ⟨by decide, by decide, by decide⟩, by decide⟩

end Russignol.Host
