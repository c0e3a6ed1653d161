import Himmy.Library.Transition

/-! # Reservations

Parties reserve keys before they work and give them back afterwards. `Apart` says that no two
parties hold one key; `Reserved` says besides that a shared table holds the keys that some party
holds. Both are kept by a party that enters a free key, gives one back, joins, or moves without
touching its key. -/

universe u v

variable {σ : Type u} {κ : Type v} {holds : σ → Option κ} {table : List κ} {ps : List σ}

def Apart (holds : σ → Option κ) (ps : List σ) : Prop :=
  ∀ (i j : Nat) (p q : σ) (k : κ), ps[i]? = some p → ps[j]? = some q →
    holds p = some k → holds q = some k → i = j

namespace Apart

theorem nil : Apart holds [] := by
  intro i j p q k hp
  simp at hp

theorem move (h : Apart holds ps) {i : Nat} {p p' : σ} (hi : ps[i]? = some p)
    (hsub : ∀ k, holds p' = some k → holds p = some k) : Apart holds (ps.set i p') := by
  have hback : ∀ (j : Nat) (q : σ) (k : κ), (ps.set i p')[j]? = some q → holds q = some k →
      ∃ q', ps[j]? = some q' ∧ holds q' = some k := by
    intro j q k hj hk
    rcases Parties.getElem?_set_cases hj with ⟨rfl, rfl⟩ | ⟨-, hj⟩
    · exact ⟨p, hi, hsub k hk⟩
    · exact ⟨q, hj, hk⟩
  intro j j' q q' k hj hj' hk hk'
  obtain ⟨r, hr, hrk⟩ := hback j q k hj hk
  obtain ⟨r', hr', hrk'⟩ := hback j' q' k hj' hk'
  exact h j j' r r' k hr hr' hrk hrk'

theorem enter (h : Apart holds ps) {i : Nat} {p' : σ} {k : κ} (hp' : holds p' = some k)
    (hfree : ∀ (j : Nat) (q : σ), i ≠ j → ps[j]? = some q → holds q ≠ some k) :
    Apart holds (ps.set i p') := by
  intro j j' q q' k' hj hj' hq hq'
  rcases Parties.getElem?_set_cases hj with ⟨rfl, rfl⟩ | ⟨hne, hold⟩
  · rcases Parties.getElem?_set_cases hj' with ⟨rfl, rfl⟩ | ⟨hne', hold'⟩
    · rfl
    · rw [hp'] at hq
      cases hq
      exact absurd hq' (hfree j' q' hne' hold')
  · rcases Parties.getElem?_set_cases hj' with ⟨rfl, rfl⟩ | ⟨hne', hold'⟩
    · rw [hp'] at hq'
      cases hq'
      exact absurd hq (hfree j q hne hold)
    · exact h j j' q q' k' hold hold' hq hq'

theorem join (h : Apart holds ps) {p : σ} (hnone : holds p = none) : Apart holds (ps ++ [p]) := by
  have hback : ∀ (j : Nat) (q : σ) (k : κ), (ps ++ [p])[j]? = some q → holds q = some k →
      ps[j]? = some q := by
    intro j q k hj hq
    rcases Parties.getElem?_concat_cases hj with hj | rfl
    · exact hj
    · rw [hnone] at hq
      cases hq
  intro j j' q q' k hj hj' hq hq'
  exact h j j' q q' k (hback j q k hj hq) (hback j' q' k hj' hq') hq hq'

end Apart

/-- The table holds the keys of the parties, and no key has two holders. -/
structure Reserved (holds : σ → Option κ) (table : List κ) (ps : List σ) : Prop where
  mem_iff : ∀ k, k ∈ table ↔ ∃ (i : Nat) (p : σ), ps[i]? = some p ∧ holds p = some k
  apart : Apart holds ps

namespace Reserved

theorem nil : Reserved holds [] [] := by
  constructor
  · intro k
    simp
  · exact Apart.nil

section

variable (h : Reserved holds table ps)

include h

variable {i : Nat}

theorem holds_ne {k : κ} (hk : k ∉ table) {p : σ}
    (hi : ps[i]? = some p) : holds p ≠ some k := by
  intro hp
  exact hk ((h.mem_iff k).2 ⟨i, p, hi, hp⟩)

variable {p p' : σ}

theorem keep (hi : ps[i]? = some p)
    (hsame : holds p' = holds p) : Reserved holds table (ps.set i p') := by
  constructor
  · intro k
    rw [h.mem_iff]
    constructor
    · rintro ⟨j, q, hj, hq⟩
      by_cases hij : i = j
      · subst hij
        rw [hi] at hj
        cases hj
        exact ⟨i, p', Parties.getElem?_set_of_some hi, hsame ▸ hq⟩
      · exact ⟨j, q, by rw [List.getElem?_set_ne hij]; exact hj, hq⟩
    · rintro ⟨j, q, hj, hq⟩
      rcases Parties.getElem?_set_cases hj with ⟨rfl, rfl⟩ | ⟨-, hold⟩
      · exact ⟨i, p, hi, hsame ▸ hq⟩
      · exact ⟨j, q, hold, hq⟩
  · exact h.apart.move hi (fun k hk => hsame ▸ hk)

theorem enter {k : κ} (hi : ps[i]? = some p)
    (hnone : holds p = none) (hk : k ∉ table) (hp' : holds p' = some k) :
    Reserved holds (k :: table) (ps.set i p') := by
  constructor
  · intro k'
    rw [List.mem_cons, h.mem_iff]
    constructor
    · rintro (rfl | ⟨j, q, hj, hq⟩)
      · exact ⟨i, p', Parties.getElem?_set_of_some hi, hp'⟩
      · have hij : i ≠ j := by
          rintro rfl
          rw [hi] at hj
          cases hj
          rw [hnone] at hq
          cases hq
        exact ⟨j, q, by rw [List.getElem?_set_ne hij]; exact hj, hq⟩
    · rintro ⟨j, q, hj, hq⟩
      rcases Parties.getElem?_set_cases hj with ⟨rfl, rfl⟩ | ⟨-, hold⟩
      · rw [hp'] at hq
        cases hq
        exact Or.inl rfl
      · exact Or.inr ⟨j, q, hold, hq⟩
  · exact h.apart.enter hp' (fun j q _ hj => h.holds_ne hk hj)

theorem leave [DecidableEq κ] {k : κ}
    (hi : ps[i]? = some p) (hk : holds p = some k) (hnone : holds p' = none) :
    Reserved holds (table.filter (· ≠ k)) (ps.set i p') := by
  constructor
  · intro k'
    rw [List.mem_filter, h.mem_iff]
    constructor
    · rintro ⟨⟨j, q, hj, hq⟩, hne⟩
      have hij : i ≠ j := by
        rintro rfl
        rw [hi] at hj
        cases hj
        rw [hk] at hq
        cases hq
        simp at hne
      exact ⟨j, q, by rw [List.getElem?_set_ne hij]; exact hj, hq⟩
    · rintro ⟨j, q, hj, hq⟩
      rcases Parties.getElem?_set_cases hj with ⟨rfl, rfl⟩ | ⟨hij, hold⟩
      · rw [hnone] at hq
        cases hq
      · refine ⟨⟨j, q, hold, hq⟩, ?_⟩
        have hne : k' ≠ k := by
          rintro rfl
          exact hij (h.apart i j p q k' hi hold hk hq)
        simpa using hne
  · exact h.apart.move hi (fun k' hk' => by rw [hnone] at hk'; cases hk')

theorem join {p : σ} (hnone : holds p = none) : Reserved holds table (ps ++ [p]) := by
  constructor
  · intro k
    rw [h.mem_iff]
    constructor
    · rintro ⟨j, q, hj, hq⟩
      have hlt : j < ps.length := (List.getElem?_eq_some_iff.1 hj).1
      exact ⟨j, q, by rw [List.getElem?_append_left hlt]; exact hj, hq⟩
    · rintro ⟨j, q, hj, hq⟩
      rcases Parties.getElem?_concat_cases hj with hj | rfl
      · exact ⟨j, q, hj, hq⟩
      · rw [hnone] at hq
        cases hq
  · exact h.apart.join hnone

end

end Reserved
