import Mathlib.Data.List.Pairwise
import Mathlib.Order.Lattice

/-! # Cuts

A strictly increasing list cuts the range from its first to its last element into spans. The spans
lie behind one another, every position of the range is in one of them, and no cut is inside one. -/

namespace Cuts

variable {α : Type}

def spans (cuts : List α) : List (α × α) := cuts.zip cuts.tail

@[simp] theorem spans_cons_cons (a b : α) (cuts : List α) :
    spans (a :: b :: cuts) = (a, b) :: spans (b :: cuts) := rfl

theorem mem_of_mem_spans {cuts : List α} {s : α × α} (h : s ∈ spans cuts) :
    s.1 ∈ cuts ∧ s.2 ∈ cuts := by
  obtain ⟨hleft, hright⟩ := List.of_mem_zip h
  exact ⟨hleft, List.mem_of_mem_tail hright⟩

variable [LinearOrder α] {cuts : List α}

theorem lt_of_mem_spans (h : cuts.Pairwise (· < ·)) {s : α × α}
    (hs : s ∈ spans cuts) : s.1 < s.2 := by
  induction cuts with
  | nil => cases hs
  | cons a cuts ih =>
    cases cuts with
    | nil => cases hs
    | cons b cuts =>
      rw [List.pairwise_cons] at h
      rcases List.mem_cons.1 hs with rfl | hs
      · exact h.1 b List.mem_cons_self
      · exact ih h.2 hs

theorem not_inside (h : cuts.Pairwise (· < ·)) {s : α × α}
    (hs : s ∈ spans cuts) {c : α} (hc : c ∈ cuts) : ¬ (s.1 < c ∧ c < s.2) := by
  induction cuts with
  | nil => cases hs
  | cons a cuts ih =>
    cases cuts with
    | nil => cases hs
    | cons b cuts =>
      rw [List.pairwise_cons] at h
      have hb : ∀ x ∈ b :: cuts, b ≤ x := by
        intro x hx
        rcases List.mem_cons.1 hx with rfl | hx
        · exact le_rfl
        · exact ((List.pairwise_cons.1 h.2).1 x hx).le
      rintro ⟨hlow, hhigh⟩
      rcases List.mem_cons.1 hs with rfl | hs
      · rcases List.mem_cons.1 hc with rfl | hc
        · exact lt_irrefl _ hlow
        · exact absurd hhigh (not_lt.2 (hb c hc))
      · have hstart := (mem_of_mem_spans hs).1
        rcases List.mem_cons.1 hc with hfirst | hc
        · exact absurd (hfirst ▸ hlow) (h.1 _ hstart).not_gt
        · exact ih h.2 hs hc ⟨hlow, hhigh⟩

theorem pairwise_spans (h : cuts.Pairwise (· < ·)) :
    (spans cuts).Pairwise (fun s t => s.2 ≤ t.1) := by
  induction cuts with
  | nil => exact List.Pairwise.nil
  | cons a cuts ih =>
    cases cuts with
    | nil => exact List.Pairwise.nil
    | cons b cuts =>
      rw [List.pairwise_cons] at h
      rw [spans_cons_cons, List.pairwise_cons]
      refine ⟨?_, ih h.2⟩
      intro t ht
      rcases List.mem_cons.1 (mem_of_mem_spans ht).1 with hb | hmem
      · exact hb.ge
      · exact ((List.pairwise_cons.1 h.2).1 _ hmem).le

theorem span_unique (h : cuts.Pairwise (· < ·)) {s t : α × α}
    (hs : s ∈ spans cuts) (ht : t ∈ spans cuts) {i : α} (his : s.1 ≤ i ∧ i < s.2)
    (hit : t.1 ≤ i ∧ i < t.2) : s = t := by
  by_contra hne
  have hapart : (spans cuts).Pairwise (fun s t => s.2 ≤ t.1 ∨ t.2 ≤ s.1) :=
    (pairwise_spans h).imp Or.inl
  have : Std.Symm (fun s t : α × α => s.2 ≤ t.1 ∨ t.2 ≤ s.1) := ⟨fun _ _ => Or.symm⟩
  rcases hapart.forall hs ht hne with hle | hle
  · exact absurd (hit.1.trans_lt his.2) (not_lt.2 hle)
  · exact absurd (his.1.trans_lt hit.2) (not_lt.2 hle)

theorem exists_span {first last : α} {inner : List α} {i : α} (hfirst : first ≤ i)
    (hlast : i < last) : ∃ s ∈ spans (first :: inner ++ [last]), s.1 ≤ i ∧ i < s.2 := by
  induction inner generalizing first with
  | nil => exact ⟨(first, last), List.mem_cons_self, hfirst, hlast⟩
  | cons b inner ih =>
    by_cases hb : b ≤ i
    · obtain ⟨s, hs, hin⟩ := ih hb
      exact ⟨s, List.mem_cons_of_mem _ hs, hin⟩
    · exact ⟨(first, b), List.mem_cons_self, hfirst, not_le.1 hb⟩

end Cuts
