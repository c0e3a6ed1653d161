import Mathlib.Data.Set.Insert

/-! # Narrowing a reach by named parts

What an authority reaches may be narrowed by naming parts of it. Without a part the whole reach is
left; with parts, what lies in the reach and in one of them. So a first part takes away, and each
further one gives back, but never more than the reach. -/

universe u v

variable {α : Type u} {ι : Type v}

/-- What `parts` leave of `reach`, where the part `i` names `names i`. -/
def narrow (reach : Set α) (names : ι → Set α) (parts : Set ι) : Set α :=
  {a | a ∈ reach ∧ (parts.Nonempty → ∃ i ∈ parts, a ∈ names i)}

section Narrow

variable {reach reach' : Set α} {names : ι → Set α} {parts parts' : Set ι}

@[simp] theorem narrow_empty : narrow reach names ∅ = reach := by
  ext a
  simp [narrow]

theorem narrow_subset : narrow reach names parts ⊆ reach := by
  intro a ha
  exact ha.1

theorem narrow_mono_reach (h : reach ⊆ reach') :
    narrow reach names parts ⊆ narrow reach' names parts := by
  intro a ha
  exact ⟨h ha.1, ha.2⟩

theorem mem_narrow_iff (h : parts.Nonempty) {a : α} :
    a ∈ narrow reach names parts ↔ a ∈ reach ∧ ∃ i ∈ parts, a ∈ names i := by
  constructor
  · intro ha
    exact ⟨ha.1, ha.2 h⟩
  · rintro ⟨hreach, hpart⟩
    exact ⟨hreach, fun _ => hpart⟩

theorem narrow_insert (h : parts.Nonempty) (i : ι) :
    narrow reach names (insert i parts) = narrow reach names parts ∪ (reach ∩ names i) := by
  ext a
  rw [Set.mem_union, mem_narrow_iff h, mem_narrow_iff (Set.insert_nonempty i parts)]
  simp only [Set.mem_insert_iff, Set.mem_inter_iff, exists_eq_or_imp]
  constructor
  · rintro ⟨hreach, hi | hparts⟩
    · exact .inr ⟨hreach, hi⟩
    · exact .inl ⟨hreach, hparts⟩
  · rintro (⟨hreach, hparts⟩ | ⟨hreach, hi⟩)
    · exact ⟨hreach, .inr hparts⟩
    · exact ⟨hreach, .inl hi⟩

end Narrow
