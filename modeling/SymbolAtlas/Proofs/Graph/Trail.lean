import Mathlib.Data.List.Basic
import SymbolAtlas.Graph.Trail

/-!
# Where a trail goes

A trail follows edges, so what edges hand on holds of all it visits. It reads the graph where it goes
and nowhere else: two graphs that are the same on a part that is not left by an edge have the same
trails in it.
-/

set_option autoImplicit false

namespace SymbolAtlas.Graph

variable {α : Type} [DecidableEq α] {g g' : Graph α}
variable {limit : Nat} {waiting : List (α × Nat)} {seen : List α}

/-- The bound, where there is one, lets a way be so long. -/
def IsWithin (limit depth : Nat) : Prop :=
  limit = 0 ∨ depth ≤ limit

theorem not_isWithin_iff {depth : Nat} : ¬ IsWithin limit depth ↔ 0 < limit ∧ limit < depth := by
  unfold IsWithin
  omega

theorem mem_fresh_iff {seen candidates : List α} {x : α} :
    x ∈ g.fresh seen candidates ↔ x ∈ candidates ∧ x ∈ g.nodes ∧ x ∉ seen := by
  induction candidates generalizing seen with
  | nil => simp [fresh]
  | cons y rest ih =>
    unfold fresh
    split
    · next hy =>
      by_cases heq : x = y
      · simp [heq, hy]
      · simp [ih, heq]
    · next hy =>
      rw [ih, List.mem_cons]
      constructor
      · rintro ⟨hrest, hnew⟩
        exact ⟨.inr hrest, hnew⟩
      · rintro ⟨rfl | hrest, hnew⟩
        · exact absurd hnew hy
        · exact ⟨hrest, hnew⟩

theorem mem_met_iff {depth : Nat} {node x : α} : x ∈ g.met limit seen node depth ↔
      IsWithin limit (depth + 1) ∧ x ∈ g.next node ∧ x ∈ g.nodes ∧ x ∉ seen := by
  unfold met
  split
  · next hdeep =>
    have hnot := not_isWithin_iff.mpr hdeep
    simp [hnot]
  · next hdeep =>
    rw [← not_isWithin_iff, not_not] at hdeep
    simp [hdeep, mem_fresh_iff]

theorem fresh_congr {candidates : List α} (h : ∀ x ∈ candidates, x ∈ g'.nodes ↔ x ∈ g.nodes)
    (seen : List α) : g'.fresh seen candidates = g.fresh seen candidates := by
  induction candidates generalizing seen with
  | nil => rfl
  | cons y rest ih =>
    rw [List.forall_mem_cons] at h
    simp only [fresh, h.1, ih h.2]

theorem mem_enqueue {β : Type} {turn : Turn} {waiting new : List β} {x : β} :
    x ∈ enqueue turn waiting new ↔ x ∈ waiting ∨ x ∈ new := by
  cases turn with
  | oldestFirst => exact List.mem_append
  | newestFirst => simp [enqueue, or_comm]

/-- What holds of the waiting nodes and is handed on along the edges holds of every visited node and
its depth. -/
theorem trailFrom_kept {turn : Turn} {P : α → Nat → Prop} (hwaiting : ∀ w ∈ waiting, P w.1 w.2)
    (hedge : ∀ x depth y, P x depth → y ∈ g.next x → IsWithin limit (depth + 1) → P y (depth + 1))
    {w : α × Nat} (hw : w ∈ g.trailFrom turn limit waiting seen) : P w.1 w.2 := by
  fun_induction g.trailFrom turn limit waiting seen with
  | case1 => simp at hw
  | case2 seen node depth waiting new ih =>
    rw [List.forall_mem_cons] at hwaiting
    rcases List.mem_cons.mp hw with rfl | hw
    · exact hwaiting.1
    · refine ih (fun w' hw' => ?_) hw
      rcases mem_enqueue.mp hw' with hw' | hw'
      · exact hwaiting.2 w' hw'
      · obtain ⟨x, hx, rfl⟩ := List.mem_map.mp hw'
        obtain ⟨hwithin, hnext, -⟩ := mem_met_iff.mp hx
        exact hedge node depth x hwaiting.1 hnext hwithin

/-- A part of a graph that no edge leaves. -/
def IsClosedPart (g : Graph α) (S : α → Prop) : Prop :=
  ∀ x, S x → ∀ y ∈ g.next x, S y

theorem IsClosedPart.mem_trailFrom {S : α → Prop} (h : g.IsClosedPart S) {turn : Turn}
    (hwaiting : ∀ w ∈ waiting, S w.1) {w : α × Nat} (hw : w ∈ g.trailFrom turn limit waiting seen) :
    S w.1 :=
  trailFrom_kept (P := fun x _ => S x) hwaiting (fun x _ y hx hy _ => h x hx y hy) hw

/-- A trail depends on no more than the part of the graph it stays in. -/
theorem IsClosedPart.trailFrom_congr {S : α → Prop} (h : g.IsClosedPart S)
    (hnext : ∀ x, S x → g'.next x = g.next x) (hnodes : ∀ x, S x → (x ∈ g'.nodes ↔ x ∈ g.nodes))
    (turn : Turn) (limit : Nat) (hwaiting : ∀ w ∈ waiting, S w.1) (seen : List α) :
    g'.trailFrom turn limit waiting seen = g.trailFrom turn limit waiting seen := by
  fun_induction g.trailFrom turn limit waiting seen with
  | case1 => rw [trailFrom]
  | case2 seen node depth waiting new ih =>
    rw [List.forall_mem_cons] at hwaiting
    have hmet : g'.met limit seen node depth = new := by
      show g'.met limit seen node depth = g.met limit seen node depth
      unfold Graph.met
      rw [hnext node hwaiting.1, fresh_congr fun x hx => hnodes x (h node hwaiting.1 x hx)]
    rw [trailFrom, hmet, ih fun w hw => ?_]
    rcases mem_enqueue.mp hw with hw | hw
    · exact hwaiting.2 w hw
    · obtain ⟨x, hx, rfl⟩ := List.mem_map.mp hw
      exact h node hwaiting.1 x (mem_met_iff.mp hx).2.1

end SymbolAtlas.Graph
