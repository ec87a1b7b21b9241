import Mathlib.Data.Set.Lattice
import Mathlib.Order.CompletePartialOrder
import Mathlib.Tactic.Common

/-!
# Cells in flight

A panel of cells is asked for one frame after another. A refresh takes its time, and another may be
started before it is done; the cells in flight are those that differ between the frame the panel
showed when it was last idle and any frame asked for since.

A driver that knows only the last frame it asked for can keep a set of cells that covers the cells
in flight: it adds what each frame changes in the last one, and starts anew when the panel is idle
(`Covers.start`, `Covers.idle`). A frame whose changes lie outside the set then touches no cell in
flight (`Covers.apart`).
-/

namespace InFlight

variable {ι κ : Type*}

/-- The cells in which two frames differ. -/
def changed (f g : ι → κ) : Set ι := {i | f i ≠ g i}

/-- What a panel was asked for: the frame that it showed when it was last idle, and the frames whose
refresh was started since, the newest first. -/
structure History (ι κ : Type*) where
  shown : ι → κ
  started : List (ι → κ)

namespace History

/-- The frame that the panel comes to show. -/
def latest (h : History ι κ) : ι → κ := h.started.head?.getD h.shown

/-- The cells in flight. -/
def inFlight (h : History ι κ) : Set ι := {i | ∃ f ∈ h.started, h.shown i ≠ f i}

/-- The panel is idle. -/
def idle (h : History ι κ) : History ι κ := ⟨h.latest, []⟩

/-- A refresh is started. -/
def start (f : ι → κ) (h : History ι κ) : History ι κ := ⟨h.shown, f :: h.started⟩

theorem inFlight_of_nil {h : History ι κ} (hnil : h.started = []) : h.inFlight = ∅ := by
  refine Set.eq_empty_of_forall_notMem fun i hi => ?_
  obtain ⟨f, hf, -⟩ := hi
  rw [hnil] at hf
  cases hf

/-- A cell that is not in flight shows what the panel comes to show. -/
theorem latest_of_notMem {h : History ι κ} {i : ι} (hi : i ∉ h.inFlight) :
    h.latest i = h.shown i := by
  cases hstarted : h.started with
  | nil => rw [latest, hstarted, List.head?_nil, Option.getD_none]
  | cons f fs =>
    rw [latest, hstarted, List.head?_cons, Option.getD_some]
    by_contra hne
    exact hi ⟨f, hstarted ▸ List.mem_cons_self, Ne.symm hne⟩

end History

/-- The set covers the cells in flight, and the frame is the last one that was asked for. -/
structure Covers (mask : Set ι) (last : ι → κ) (h : History ι κ) : Prop where
  latest : h.latest = last
  inFlight : h.inFlight ⊆ mask

namespace Covers

variable {mask : Set ι} {last f : ι → κ} {h : History ι κ}

/-- On an idle panel every set covers. -/
theorem idle (hc : Covers mask last h) (mask' : Set ι) : Covers mask' last h.idle where
  latest := hc.latest
  inFlight := by
    rw [History.inFlight_of_nil rfl]
    exact Set.empty_subset _

/-- A refresh that is started adds the cells that it changes. -/
theorem start (hc : Covers mask last h) : Covers (mask ∪ changed last f) f (h.start f) where
  latest := rfl
  inFlight := by
    rintro i ⟨g, hg, hne⟩
    rcases List.mem_cons.1 hg with rfl | hg
    · by_cases hi : i ∈ h.inFlight
      · exact .inl (hc.inFlight hi)
      · refine .inr ?_
        show last i ≠ g i
        rw [← hc.latest, History.latest_of_notMem hi]
        exact hne
    · exact .inl (hc.inFlight ⟨g, hg, hne⟩)

/-- The first refresh, on a panel that is known to show only what it does not change. -/
theorem first (hstarted : h.started = []) (hf : changed h.shown f ⊆ mask) :
    Covers mask f (h.start f) where
  latest := rfl
  inFlight := by
    rintro i ⟨g, hg, hne⟩
    rw [History.start, hstarted, List.mem_singleton] at hg
    subst hg
    exact hf hne

/-- What lies outside the set lies outside the cells in flight. -/
theorem apart (hc : Covers mask last h) {s : Set ι} (hs : Disjoint mask s) :
    Disjoint h.inFlight s :=
  hs.mono_left hc.inFlight

end Covers

end InFlight
