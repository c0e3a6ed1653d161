import Mathlib.Data.List.MinMax
import Mathlib.Data.Prod.Lex

/-! # The first minimum of a list

`List.argmin f l` is the first item of `l` at which `f` is least: the head of a stable sort, or of
an `ORDER BY … LIMIT 1` whose ties go to the earlier row. Whether an item replaces the best one so
far depends only on how it compares with items before it, so two keys that compare alike on every
pair of an earlier and a later item select the same item (`argmin_congr_of_pairwise`). In
particular a tie-breaker along which the list is already sorted may be dropped
(`argmin_lex_of_pairwise`). -/

universe u v w

namespace FirstMin

variable {α : Type u} {β : Type v} {γ : Type w}

theorem argmin_congr_of_pairwise [Preorder β] [DecidableLT β] [Preorder γ] [DecidableLT γ]
    {f : α → β} {g : α → γ} {l : List α}
    (h : l.Pairwise (fun c b => f b < f c ↔ g b < g c)) : l.argmin f = l.argmin g := by
  induction l using List.reverseRecOn with
  | nil => rfl
  | append_singleton l a ih =>
    obtain ⟨hl, -, ha⟩ := List.pairwise_append.1 h
    rw [List.argmin_concat, List.argmin_concat, ih hl]
    cases hmin : l.argmin g with
    | none => rfl
    | some c =>
      have hc := ha c (List.argmin_mem hmin) a (List.mem_singleton_self a)
      by_cases hlt : g a < g c
      · simp [hlt, hc.2 hlt]
      · simp [hlt, mt hc.1 hlt]

/-- A last tie-breaker that never decreases along the list decides nothing. -/
theorem argmin_lex_of_pairwise [LinearOrder β] [LinearOrder γ] {f : α → β} {g : α → γ}
    {l : List α} (h : l.Pairwise (fun c b => g c ≤ g b)) :
    l.argmin (fun a => toLex (f a, g a)) = l.argmin f := by
  refine argmin_congr_of_pairwise (h.imp (fun {c b} hcb => ?_))
  rw [Prod.Lex.toLex_lt_toLex]
  constructor
  · rintro (hlt | ⟨-, hlt⟩)
    · exact hlt
    · exact absurd hlt (not_lt_of_ge hcb)
  · exact Or.inl

theorem argmin_map [Preorder γ] [DecidableLT γ] (φ : α → β) (f : β → γ) (l : List α) :
    (l.map φ).argmin f = (l.argmin (fun a => f (φ a))).map φ := by
  induction l using List.reverseRecOn with
  | nil => rfl
  | append_singleton l a ih =>
    rw [List.map_append, List.map_singleton, List.argmin_concat, List.argmin_concat, ih]
    cases l.argmin (fun a => f (φ a)) with
    | none => rfl
    | some c => by_cases hlt : f (φ a) < f (φ c) <;> simp [hlt]

end FirstMin
