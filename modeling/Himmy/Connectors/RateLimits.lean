import Mathlib.Tactic.Linarith
import Mathlib.Algebra.Order.Field.Rat
import Himmy.Connectors.Sdk

/-! # What a rate limiter admits

A bucket is worth what `check` would refill it to, and a key without one a full bucket. `check` reads
nothing else of a key (`check_eq`), so that a bucket dropped when it has refilled is not missed: a
limiter that drops no other decides for each key as a limiter of that key alone. The eviction judges a
bucket by the tokens of its last check, and may drop a draining one in place of a refilled one. -/

namespace Himmy.Connectors

namespace RateLimiter

/-! ## A bucket -/

/-- The tokens of a bucket once refilled; a key without one has a full bucket. -/
def level (capacity rate : Rat) : Option (Rat × Rat) → Rat → Rat
  | none, _ => capacity
  | some (tokens, last), now => min capacity (tokens + (now - last) * rate)

def spend (tokens : Rat) : Rat := if tokens < 1 then tokens else tokens - 1

def admissions (capacity rate : Rat) : Option (Rat × Rat) → List Rat → List Bool
  | _, [] => []
  | bucket, now :: nows =>
    decide (1 ≤ level capacity rate bucket now) ::
      admissions capacity rate (some (spend (level capacity rate bucket now), now)) nows

section Bucket

variable {capacity rate : Rat} {bucket bucket' : Option (Rat × Rat)} {now : Rat}

theorem level_le (capacity rate : Rat) (bucket : Option (Rat × Rat)) (now : Rat) :
    level capacity rate bucket now ≤ capacity := by
  rcases bucket with - | ⟨tokens, last⟩
  · exact le_refl _
  · exact min_le_left _ _

def Alike (capacity rate : Rat) (bucket bucket' : Option (Rat × Rat)) (now : Rat) : Prop :=
  ∀ later, now ≤ later → level capacity rate bucket later = level capacity rate bucket' later

theorem alike_none (hrate : 0 ≤ rate) (hfull : capacity ≤ level capacity rate bucket now) :
    Alike capacity rate bucket none now := by
  intro later hlater
  rcases bucket with - | ⟨tokens, last⟩
  · rfl
  · refine le_antisymm (level_le _ _ _ _) (le_min (le_refl _) ?_)
    have htokens := hfull.trans (min_le_right _ _)
    have hmore := mul_le_mul_of_nonneg_right (sub_le_sub_right hlater last) hrate
    show capacity ≤ _
    linarith

theorem level_le_refilled (hrate : 0 ≤ rate) {later : Rat} (hlater : now ≤ later) :
    level capacity rate bucket later ≤ level capacity rate bucket now + (later - now) * rate := by
  have hmore := mul_nonneg (sub_nonneg.2 hlater) hrate
  rcases bucket with - | ⟨tokens, last⟩
  · show capacity ≤ capacity + _
    linarith
  · simp only [level]
    rcases min_choice capacity (tokens + (now - last) * rate) with hmin | hmin <;> rw [hmin]
    · exact (min_le_left _ _).trans (by linarith)
    · exact (min_le_right _ _).trans (by linarith)

theorem level_spent_self :
    level capacity rate (some (spend (level capacity rate bucket now), now)) now
      = spend (level capacity rate bucket now) := by
  have hle := level_le capacity rate bucket now
  generalize level capacity rate bucket now = tokens at hle
  have hspend : spend tokens ≤ capacity := by
    unfold spend
    split <;> linarith
  show min capacity (spend tokens + (now - now) * rate) = spend tokens
  rw [sub_self, zero_mul, add_zero, min_eq_right hspend]

def Solvent (capacity rate : Rat) (bucket : Option (Rat × Rat)) (now : Rat) : Prop :=
  ∀ later, now ≤ later → 0 ≤ level capacity rate bucket later

theorem Solvent.spent (hcapacity : 0 ≤ capacity) (hrate : 0 ≤ rate)
    (h : Solvent capacity rate bucket now) :
    Solvent capacity rate (some (spend (level capacity rate bucket now), now)) now := by
  intro later hlater
  have hmore := mul_nonneg (sub_nonneg.2 hlater) hrate
  have hnow := h now (le_refl _)
  refine le_min hcapacity ?_
  unfold spend
  split <;> linarith

theorem count_admissions_le (hcapacity : 0 ≤ capacity) (hrate : 0 ≤ rate) {nows : List Rat} (till : Rat)
    (hsolvent : Solvent capacity rate bucket now) (hsorted : (now :: nows).Pairwise (· ≤ ·))
    (htill : ∀ t ∈ now :: nows, t ≤ till) :
    ((admissions capacity rate bucket nows).count true : Rat)
      ≤ level capacity rate bucket now + (till - now) * rate := by
  induction nows generalizing bucket now with
  | nil =>
    have hnow := hsolvent now (le_refl _)
    have hmore := mul_nonneg (sub_nonneg.2 (htill now List.mem_cons_self)) hrate
    simpa [admissions] using add_nonneg hnow hmore
  | cons t nows ih =>
    rw [List.pairwise_cons] at hsorted
    have ht : now ≤ t := hsorted.1 t List.mem_cons_self
    have hrefilled : level capacity rate bucket t ≤ level capacity rate bucket now + (t - now) * rate :=
      level_le_refilled hrate ht
    have hsolvent' : Solvent capacity rate bucket t := fun later hlater =>
      hsolvent later (ht.trans hlater)
    have hrest := ih (hsolvent'.spent hcapacity hrate) hsorted.2
      (fun u hu => htill u (List.mem_cons_of_mem _ hu))
    rw [level_spent_self] at hrest
    rw [admissions, List.count_cons]
    push_cast
    -- an admitted check takes the token that it counts
    unfold spend at hrest
    by_cases htoken : level capacity rate bucket t < 1
    · rw [if_pos htoken] at hrest
      simp only [not_le.2 htoken, decide_false, beq_iff_eq, Bool.false_eq_true, if_false]
      unfold spend
      rw [if_pos htoken]
      linarith
    · rw [if_neg htoken] at hrest
      simp only [not_lt.1 htoken, decide_true, beq_self_eq_true, if_true]
      unfold spend
      rw [if_neg htoken]
      linarith

end Bucket

/-! ## A check -/

variable {limiter : RateLimiter} {key : String} {now : Rat}

def held (limiter : RateLimiter) (key : String) : Option (Rat × Rat) :=
  (limiter.buckets.get? key).map Prod.snd

def tokens (limiter : RateLimiter) (key : String) (now : Rat) : Rat :=
  level limiter.capacity limiter.refillPerSec (limiter.held key) now

def counted (limiter : RateLimiter) (key : String) (now : Rat) : RateLimiter :=
  { limiter with buckets := limiter.buckets.replace (key, spend (limiter.tokens key now), now) }

theorem check_eq (limiter : RateLimiter) (key : String) (now : Rat) : limiter.check key now
      = ((limiter.counted key now).evict, decide (1 ≤ limiter.tokens key now)) := by
  have hspend : ∀ t : Rat,
      (if t < 1 then
        (evict { limiter with buckets := limiter.buckets.replace (key, t, now) }, false)
      else (evict { limiter with buckets := limiter.buckets.replace (key, t - 1, now) }, true))
        = (evict { limiter with buckets := limiter.buckets.replace (key, spend t, now) },
          decide (1 ≤ t)) := by
    intro t
    unfold spend
    by_cases ht : t < 1
    · rw [if_pos ht, if_pos ht, decide_eq_false (not_le.2 ht)]
    · rw [if_neg ht, if_neg ht, decide_eq_true (not_lt.1 ht)]
  unfold check counted tokens held
  dsimp only
  rw [hspend]
  cases limiter.buckets.get? key with
  | none =>
    simp only [Option.map_none, level, sub_self, zero_mul, add_zero, min_self]
    rfl
  | some bucket => rfl

/-! ## The eviction -/

theorem dropFull_one (full : Rat × Rat → Bool) (buckets : List (String × Rat × Rat)) :
    (dropFull full 1 buckets = buckets ∧ ∀ bucket ∈ buckets, full bucket.2 = false)
      ∨ ∃ front bucket back, buckets = front ++ bucket :: back ∧ full bucket.2 = true
        ∧ dropFull full 1 buckets = front ++ back := by
  induction buckets with
  | nil => exact Or.inl ⟨rfl, fun _ h => by cases h⟩
  | cons bucket buckets ih =>
    rw [dropFull]
    cases hfull : full bucket.2 with
    | true => exact Or.inr ⟨[], bucket, buckets, rfl, hfull, by cases buckets <;> rfl⟩
    | false =>
      simp only [Bool.false_eq_true, if_false]
      rcases ih with ⟨hsame, hnone⟩ | ⟨front, x, back, rfl, hx, hdrop⟩
      · refine Or.inl ⟨by rw [hsame], fun y hy => ?_⟩
        rcases List.mem_cons.1 hy with rfl | hy
        · exact hfull
        · exact hnone y hy
      · exact Or.inr ⟨bucket :: front, x, back, rfl, hx, by rw [hdrop]; rfl⟩

theorem evict_eq_of_items {buckets : KeyedList (Prod.fst : String × Rat × Rat → String)}
    (h : limiter.evict.buckets.items = buckets.items) : limiter.evict = { limiter with buckets } := by
  rw [← KeyedList.ext h]
  rfl

theorem items_evict (limiter : RateLimiter) : limiter.evict.buckets.items
    = (dropFull (fun bucket => limiter.capacity ≤ bucket.1)
        (limiter.buckets.items.length - limiter.maxKeys) limiter.buckets.items).drop
      ((dropFull (fun bucket => limiter.capacity ≤ bucket.1)
        (limiter.buckets.items.length - limiter.maxKeys) limiter.buckets.items).length
          - limiter.maxKeys) := rfl

theorem items_erase {front back : List (String × Rat × Rat)} {bucket : String × Rat × Rat}
    (h : limiter.buckets.items = front ++ bucket :: back) :
    (limiter.buckets.erase bucket.1).items = front ++ back := by
  have hnodup := limiter.buckets.nodup_keys
  rw [h, List.map_append, List.map_cons, List.nodup_append, List.nodup_cons] at hnodup
  obtain ⟨-, ⟨hback, -⟩, hfront⟩ := hnodup
  have hkeep : ∀ l : List (String × Rat × Rat), bucket.1 ∉ l.map Prod.fst →
      l.filter (fun other => decide (other.1 ≠ bucket.1)) = l := by
    intro l hl
    refine List.filter_eq_self.2 fun other hother => decide_eq_true fun heq => ?_
    exact hl (heq ▸ List.mem_map_of_mem hother)
  rw [KeyedList.erase, KeyedList.items_filter, h, List.filter_append, List.filter_cons_of_neg (by simp),
    hkeep back hback, hkeep front fun hmem => hfront _ hmem _ List.mem_cons_self rfl]

/-- One bucket too many is dropped: one that was full when it was last checked, or else the least
    recently used one. -/
theorem evict_cases (hlen : limiter.buckets.items.length ≤ limiter.maxKeys + 1) :
    limiter.evict = limiter ∨ limiter.maxKeys < limiter.buckets.items.length
      ∧ ∃ bucket ∈ limiter.buckets.items,
        limiter.evict = { limiter with buckets := limiter.buckets.erase bucket.1 }
        ∧ (limiter.capacity ≤ bucket.2.1 ∨ limiter.buckets.items.head? = some bucket
          ∧ ∀ other ∈ limiter.buckets.items, other.2.1 < limiter.capacity) := by
  have hitems := items_evict limiter
  by_cases hfit : limiter.buckets.items.length ≤ limiter.maxKeys
  · left
    rw [Nat.sub_eq_zero_of_le hfit, dropFull, Nat.sub_eq_zero_of_le hfit, List.drop_zero] at hitems
    exact evict_eq_of_items hitems
  refine Or.inr ⟨not_le.1 hfit, ?_⟩
  rw [show limiter.buckets.items.length - limiter.maxKeys = 1 by omega] at hitems
  rcases dropFull_one (fun bucket => limiter.capacity ≤ bucket.1) limiter.buckets.items with
    ⟨hsame, hnone⟩ | ⟨front, bucket, back, hsplit, hfull, hdrop⟩
  · obtain ⟨bucket, rest, hcons⟩ := List.exists_cons_of_length_pos
      (show 0 < limiter.buckets.items.length by omega)
    refine ⟨bucket, by rw [hcons]; exact List.mem_cons_self, evict_eq_of_items ?_,
      Or.inr ⟨by rw [hcons]; rfl, ?_⟩⟩
    · rw [hitems, hsame, items_erase (hcons.trans (List.nil_append _).symm),
        show limiter.buckets.items.length - limiter.maxKeys = 1 by omega, hcons]
      rfl
    · exact fun other hother => not_le.1 (of_decide_eq_false (hnone other hother))
  · refine ⟨bucket, by simp [hsplit], evict_eq_of_items ?_, Or.inl (of_decide_eq_true hfull)⟩
    rw [hitems, hdrop, items_erase hsplit]
    have hlength := congrArg List.length hsplit
    simp only [List.length_append, List.length_cons] at hlength
    rw [show (front ++ back).length - limiter.maxKeys = 0 by rw [List.length_append]; omega,
      List.drop_zero]

/-! ## A run of checks -/

/-- The limiter has room for the key, or a bucket that was full at its last check, or the bucket used
    least recently has refilled. -/
def Spares (limiter : RateLimiter) (key : String) (now : Rat) : Prop :=
  (limiter.held key).isSome ∨ limiter.buckets.items.length < limiter.maxKeys
    ∨ (∃ bucket ∈ limiter.buckets.items, limiter.capacity ≤ bucket.2.1)
    ∨ ∃ bucket, limiter.buckets.items.head? = some bucket ∧ limiter.capacity ≤ limiter.tokens bucket.1 now

def SparesAlong : RateLimiter → List (String × Rat) → Prop
  | _, [] => True
  | limiter, (key, now) :: checks =>
    limiter.Spares key now ∧ SparesAlong (limiter.check key now).1 checks

def decisions : RateLimiter → List (String × Rat) → List Bool
  | _, [] => []
  | limiter, (key, now) :: checks =>
    (limiter.check key now).2 :: decisions (limiter.check key now).1 checks

def after (limiter : RateLimiter) (checks : List (String × Rat)) : RateLimiter :=
  checks.foldl (fun limiter check => (limiter.check check.1 check.2).1) limiter

def pick (key : String) (checks : List (String × Rat)) (decisions : List Bool) : List Bool :=
  ((checks.zip decisions).filter (fun check => check.1.1 = key)).map Prod.snd

/-- A limiter as it is made, and as checks leave it at a clock reading. -/
structure Running (limiter : RateLimiter) (now : Rat) : Prop where
  refill_pos : 0 < limiter.refillPerSec
  capacity_pos : 0 < limiter.capacity
  maxKeys_pos : 0 < limiter.maxKeys
  within : limiter.buckets.items.length ≤ limiter.maxKeys
  bucket : ∀ bucket ∈ limiter.buckets.items, 0 ≤ bucket.2.1 ∧ bucket.2.2 ≤ now

theorem held_of_mem {bucket : String × Rat × Rat} (h : bucket ∈ limiter.buckets.items) :
    limiter.held bucket.1 = some bucket.2 := by
  rw [held, limiter.buckets.get?_of_mem h]
  rfl

theorem mem_of_held {bucket : Rat × Rat} (h : limiter.held key = some bucket) :
    (key, bucket) ∈ limiter.buckets.items := by
  obtain ⟨item, hget, rfl⟩ := Option.map_eq_some_iff.1 h
  rw [← KeyedList.key_of_get? hget]
  exact KeyedList.mem_of_get? hget

namespace Running

theorem solvent (h : limiter.Running now) (key : String) :
    Solvent limiter.capacity limiter.refillPerSec (limiter.held key) now := by
  intro later hlater
  cases hheld : limiter.held key with
  | none => exact h.capacity_pos.le
  | some bucket =>
    obtain ⟨htokens, hlast⟩ := h.bucket _ (mem_of_held hheld)
    have hrefill := mul_nonneg (sub_nonneg.2 (hlast.trans hlater)) h.refill_pos.le
    exact le_min h.capacity_pos.le (add_nonneg htokens hrefill)

theorem items_counted (hnew : limiter.held key = none) (later : Rat) :
    (limiter.counted key later).buckets.items
      = limiter.buckets.items ++ [(key, spend (limiter.tokens key later), later)] := by
  have hget : limiter.buckets.get? key = none := Option.map_eq_none_iff.1 hnew
  have herase : (limiter.buckets.erase key).items = limiter.buckets.items := by
    refine List.filter_eq_self.2 fun bucket hbucket => decide_eq_true ?_
    exact (limiter.buckets.get?_eq_none_iff key).1 hget bucket hbucket
  show ((limiter.buckets.erase key).put _).items = _
  rw [KeyedList.items_put_of_none, herase]
  rw [KeyedList.get?_erase, if_pos rfl]

theorem length_counted_le (limiter : RateLimiter) (key : String) (later : Rat) :
    (limiter.counted key later).buckets.items.length
      ≤ limiter.buckets.items.length + (if (limiter.held key).isSome then 0 else 1) := by
  have hlength : (limiter.counted key later).buckets.items.length
      = (limiter.buckets.erase key).items.length + 1 := by
    show ((limiter.buckets.erase key).put _).items.length = _
    rw [KeyedList.items_put_of_none, List.length_append, List.length_singleton]
    rw [KeyedList.get?_erase, if_pos rfl]
  rw [hlength]
  cases hheld : limiter.held key with
  | none => exact Nat.succ_le_succ (List.length_filter_le _ _)
  | some bucket =>
    exact List.length_filter_lt_length_iff_exists.2 ⟨_, mem_of_held hheld, by simp⟩

variable {later : Rat}

theorem bucket_counted (h : limiter.Running now) (hlater : now ≤ later) :
    ∀ bucket ∈ (limiter.counted key later).buckets.items, 0 ≤ bucket.2.1 ∧ bucket.2.2 ≤ later := by
  intro bucket hbucket
  rcases (KeyedList.mem_replace_iff _ _ _).1 hbucket with rfl | ⟨hbucket, -⟩
  · refine ⟨?_, le_refl _⟩
    have htokens := h.solvent key later hlater
    show 0 ≤ spend (limiter.tokens key later)
    unfold spend tokens
    split <;> linarith
  · obtain ⟨htokens, hlast⟩ := h.bucket bucket hbucket
    exact ⟨htokens, hlast.trans hlater⟩

theorem held_counted (limiter : RateLimiter) (key other : String) (later : Rat) :
    (limiter.counted key later).held other
      = if other = key then some (spend (limiter.tokens key later), later) else limiter.held other := by
  unfold held counted
  rw [KeyedList.get?_replace]
  split <;> rfl

theorem alike_check (h : limiter.Running now) (hlater : now ≤ later)
    (hspares : limiter.Spares key later) (other : String) :
    Alike limiter.capacity limiter.refillPerSec ((limiter.check key later).1.held other)
      (if other = key then some (spend (limiter.tokens key later), later) else limiter.held other)
      later := by
  rw [check_eq, ← held_counted]
  have hlength := length_counted_le limiter key later
  have hwithin := h.within
  rcases evict_cases (hlength.trans (by split <;> simpa [counted] using by omega)) with
    hsame | ⟨hover, bucket, hbucket, hevict, hwhy⟩
  · rw [hsame]
    exact fun _ _ => rfl
  rw [hevict]
  have hheld : ({ limiter.counted key later with
      buckets := (limiter.counted key later).buckets.erase bucket.1 } : RateLimiter).held other
        = if other = bucket.1 then none else (limiter.counted key later).held other := by
    unfold held
    rw [KeyedList.get?_erase]
    split <;> rfl
  rw [hheld]
  split
  · next heq =>
    subst heq
    intro t ht
    refine (alike_none h.refill_pos.le ?_ t ht).symm
    rw [held_of_mem hbucket]
    rcases hwhy with hfull | ⟨hhead, hall⟩
    · have hlast := (h.bucket_counted hlater bucket hbucket).2
      have hrefill := mul_nonneg (sub_nonneg.2 hlast) h.refill_pos.le
      exact le_min (le_refl _) (le_add_of_le_of_nonneg hfull hrefill)
    · have hnew : limiter.held key = none := by
        by_contra hold
        rw [if_pos (Option.isSome_iff_ne_none.2 hold)] at hlength
        exact absurd (hlength.trans hwithin) (not_le.2 hover)
      rw [items_counted hnew] at hhead hall hover
      rcases hspares with hold | hroom | ⟨full, hmem, hfull⟩ | ⟨first, hfirst, hfull⟩
      · rw [hnew] at hold
        cases hold
      · rw [List.length_append, List.length_singleton] at hover
        exact absurd hroom (by simpa [counted] using Nat.le_of_lt_succ hover)
      · exact absurd hfull (not_le.2 (hall full (List.mem_append_left _ hmem)))
      · rw [List.head?_append, hfirst] at hhead
        obtain rfl := Option.some.inj hhead
        have hheld := held_of_mem (List.mem_of_head? hfirst)
        rwa [tokens, hheld] at hfull
  · exact fun _ _ => rfl

theorem check (h : limiter.Running now) (hlater : now ≤ later) (key : String) :
    (limiter.check key later).1.Running later := by
  rw [check_eq]
  refine ⟨h.refill_pos, h.capacity_pos, h.maxKeys_pos, KeyedList.length_trim_le _ _, fun bucket hbucket => ?_⟩
  exact h.bucket_counted hlater bucket ((dropFull_sublist _ _ _).subset (List.mem_of_mem_drop hbucket))

end Running

/-! ## Decisions key by key -/

def freely (capacity rate : Rat) : (String → Option (Rat × Rat)) → List (String × Rat) → List Bool
  | _, [] => []
  | buckets, (key, now) :: checks =>
    decide (1 ≤ level capacity rate (buckets key) now) ::
      freely capacity rate
        (Function.update buckets key (some (spend (level capacity rate (buckets key) now), now))) checks

theorem pick_freely (capacity rate : Rat) (key : String) (checks : List (String × Rat))
    (buckets : String → Option (Rat × Rat)) : pick key checks (freely capacity rate buckets checks)
      = admissions capacity rate (buckets key)
          ((checks.filter (fun check => check.1 = key)).map Prod.snd) := by
  induction checks generalizing buckets with
  | nil => rfl
  | cons check checks ih =>
    have hrest := ih (Function.update buckets check.1
      (some (spend (level capacity rate (buckets check.1) check.2), check.2)))
    unfold pick at hrest ⊢
    rw [freely, List.zip_cons_cons]
    by_cases hkey : check.1 = key
    · subst hkey
      rw [Function.update_self] at hrest
      rw [List.filter_cons_of_pos (by simp), List.filter_cons_of_pos (by simp), List.map_cons,
        List.map_cons, admissions, hrest]
    · rw [Function.update_of_ne (Ne.symm hkey)] at hrest
      rw [List.filter_cons_of_neg (by simpa using hkey), List.filter_cons_of_neg (by simpa using hkey),
        hrest]

variable {checks : List (String × Rat)}

theorem freely_of_key (capacity rate : Rat) (key : String)
    (hkey : ∀ check ∈ checks, check.1 = key) (buckets : String → Option (Rat × Rat)) :
    freely capacity rate buckets checks
      = admissions capacity rate (buckets key) (checks.map Prod.snd) := by
  induction checks generalizing buckets with
  | nil => rfl
  | cons check checks ih =>
    obtain rfl := hkey check List.mem_cons_self
    rw [freely, List.map_cons, admissions, ih (fun c hc => hkey c (List.mem_cons_of_mem _ hc)),
      Function.update_self]

theorem decisions_eq_freely (buckets : String → Option (Rat × Rat))
    (h : limiter.Running now) (hclock : (now :: checks.map Prod.snd).Pairwise (· ≤ ·))
    (hspares : limiter.SparesAlong checks)
    (halike : ∀ key, Alike limiter.capacity limiter.refillPerSec (limiter.held key) (buckets key) now) :
    limiter.decisions checks = freely limiter.capacity limiter.refillPerSec buckets checks := by
  induction checks generalizing limiter now buckets with
  | nil => rfl
  | cons check checks ih =>
    obtain ⟨key, later⟩ := check
    rw [List.map_cons, List.pairwise_cons] at hclock
    have hlater : now ≤ later := hclock.1 later List.mem_cons_self
    have hlevel := halike key later hlater
    have hcheck := check_eq limiter key later
    rw [decisions, freely, hcheck, ← hlevel]
    congr 1
    have hrun := @ih (limiter.check key later).1 later
      (Function.update buckets key (some (spend (limiter.tokens key later), later)))
      (h.check hlater key) hclock.2 hspares.2 (fun other t ht => by
        have hother := h.alike_check hlater hspares.1 other t ht
        rw [hcheck] at hother ⊢
        refine hother.trans ?_
        by_cases heq : other = key
        · rw [if_pos heq, heq, Function.update_self]
          rfl
        · rw [if_neg heq, Function.update_of_ne heq]
          exact halike other t (hlater.trans ht))
    rw [hcheck] at hrun
    exact hrun

theorem sparesAlong_of_subset (keys : List String)
    (hkeys : keys.length ≤ limiter.maxKeys) (hheld : limiter.buckets.items.map Prod.fst ⊆ keys)
    (hchecks : ∀ check ∈ checks, check.1 ∈ keys) : limiter.SparesAlong checks := by
  induction checks generalizing limiter with
  | nil => trivial
  | cons check checks ih =>
    obtain ⟨key, now⟩ := check
    have hkey : key ∈ keys := hchecks _ List.mem_cons_self
    refine ⟨?_, ih (by rwa [check_eq]) ?_ (fun c hc => hchecks c (List.mem_cons_of_mem _ hc))⟩
    · cases hnew : limiter.held key with
      | some bucket => exact Or.inl (by rw [hnew]; rfl)
      | none =>
        have hfresh : key ∉ limiter.buckets.items.map Prod.fst := by
          intro hmem
          obtain ⟨bucket, hbucket, rfl⟩ := List.mem_map.1 hmem
          rw [held_of_mem hbucket] at hnew
          cases hnew
        have hcount := (List.subperm_of_subset (List.nodup_cons.2 ⟨hfresh, limiter.buckets.nodup_keys⟩)
          (List.cons_subset.2 ⟨hkey, hheld⟩)).length_le
        rw [List.length_cons, List.length_map] at hcount
        exact Or.inr (Or.inl (by omega))
    · rw [check_eq]
      intro k hk
      obtain ⟨bucket, hbucket, rfl⟩ := List.mem_map.1 hk
      have hcounted := (dropFull_sublist _ _ _).subset (List.mem_of_mem_drop hbucket)
      rcases (KeyedList.mem_replace_iff _ _ _).1 hcounted with rfl | ⟨hold, -⟩
      · exact hkey
      · exact hheld (List.mem_map_of_mem hold)

theorem Running.after (h : limiter.Running now) {later : Rat}
    (hclock : (now :: checks.map Prod.snd).Pairwise (· ≤ ·))
    (hlater : ∀ t ∈ now :: checks.map Prod.snd, t ≤ later) : (limiter.after checks).Running later := by
  induction checks generalizing limiter now with
  | nil =>
    have hle := hlater now List.mem_cons_self
    exact { h with bucket := fun bucket hbucket =>
      ⟨(h.bucket bucket hbucket).1, (h.bucket bucket hbucket).2.trans hle⟩ }
  | cons check checks ih =>
    rw [List.map_cons, List.pairwise_cons] at hclock
    exact ih (h.check (hclock.1 check.2 List.mem_cons_self) check.1) hclock.2
      (fun t ht => hlater t (List.mem_cons_of_mem _ ht))

theorem sparesAlong_append {before span : List (String × Rat)} :
    limiter.SparesAlong (before ++ span)
      ↔ limiter.SparesAlong before ∧ (limiter.after before).SparesAlong span := by
  induction before generalizing limiter with
  | nil => simp [SparesAlong, after]
  | cons check before ih => simp only [List.cons_append, SparesAlong, ih, and_assoc]; rfl

def made (capacity refillPerSec : Rat) (maxKeys : Nat) : RateLimiter := { refillPerSec, capacity, maxKeys }

theorem running_made {capacity refill : Rat} {maxKeys : Nat} (hcapacity : 0 < capacity)
    (hrefill : 0 < refill) (hkeys : 0 < maxKeys) (now : Rat) :
    (made capacity refill maxKeys).Running now :=
  ⟨hrefill, hcapacity, hkeys, Nat.zero_le _, fun _ hbucket => by cases hbucket⟩

theorem after_fields (limiter : RateLimiter) (checks : List (String × Rat)) :
    (limiter.after checks).capacity = limiter.capacity
      ∧ (limiter.after checks).refillPerSec = limiter.refillPerSec := by
  induction checks generalizing limiter with
  | nil => exact ⟨rfl, rfl⟩
  | cons check checks ih =>
    have hcheck := ih (limiter.check check.1 check.2).1
    rw [check_eq] at hcheck
    unfold after
    rw [List.foldl_cons, check_eq]
    exact hcheck

theorem exists_start {nows : List Rat} (hclock : nows.Pairwise (· ≤ ·)) :
    ∃ start, (start :: nows).Pairwise (· ≤ ·) := by
  cases nows with
  | nil => exact ⟨0, List.pairwise_singleton _ _⟩
  | cons t nows =>
    refine ⟨t, List.pairwise_cons.2 ⟨fun u hu => ?_, hclock⟩⟩
    rcases List.mem_cons.1 hu with rfl | hu
    · exact le_refl _
    · exact (List.pairwise_cons.1 hclock).1 u hu

section Runs

variable {capacity refill : Rat} {maxKeys : Nat} {checks : List (String × Rat)}

theorem decisions_made (hcapacity : 0 < capacity) (hrefill : 0 < refill) (hkeys : 0 < maxKeys)
    (hclock : (checks.map Prod.snd).Pairwise (· ≤ ·))
    (hspares : (made capacity refill maxKeys).SparesAlong checks) :
    (made capacity refill maxKeys).decisions checks = freely capacity refill (fun _ => none) checks := by
  obtain ⟨start, hstart⟩ := exists_start hclock
  exact decisions_eq_freely _ (running_made hcapacity hrefill hkeys start) hstart hspares
    (fun _ _ _ => rfl)

theorem count_pick_le {before span : List (String × Rat)} {key : String} {since till : Rat}
    (hcapacity : 0 < capacity) (hrefill : 0 < refill) (hkeys : 0 < maxKeys)
    (hclock : ((before ++ span).map Prod.snd).Pairwise (· ≤ ·))
    (hspares : (made capacity refill maxKeys).SparesAlong (before ++ span))
    (hle : since ≤ till) (hspan : ∀ check ∈ span, since ≤ check.2 ∧ check.2 ≤ till) :
    ((pick key span (((made capacity refill maxKeys).after before).decisions span)).count true : Rat)
      ≤ capacity + (till - since) * refill := by
  have hspan_nonneg := mul_nonneg (sub_nonneg.2 hle) hrefill.le
  cases span with
  | nil => simpa [pick, decisions] using add_nonneg hcapacity.le hspan_nonneg
  | cons check span =>
    obtain ⟨start, hstart⟩ := exists_start hclock
    rw [List.map_append, ← List.cons_append, List.pairwise_append] at hstart
    obtain ⟨hbefore, hsorted, hcross⟩ := hstart
    have hrunning := (running_made hcapacity hrefill hkeys start).after hbefore
      (fun t ht => hcross t ht check.2 List.mem_cons_self)
    have hfirst : ∀ t ∈ (check :: span).map Prod.snd, check.2 ≤ t := by
      intro t ht
      rcases List.mem_cons.1 ht with rfl | ht
      · exact le_refl _
      · exact (List.pairwise_cons.1 hsorted).1 t ht
    have hsub : (((check :: span).filter (fun c => c.1 = key)).map Prod.snd).Sublist
        ((check :: span).map Prod.snd) := List.filter_sublist.map _
    have hfree := decisions_eq_freely ((made capacity refill maxKeys).after before).held hrunning
      (List.pairwise_cons.2 ⟨hfirst, hsorted⟩) (sparesAlong_append.1 hspares).2 (fun _ _ _ => rfl)
    have hcount := count_admissions_le hrunning.capacity_pos.le hrunning.refill_pos.le till
      (hrunning.solvent key)
      (List.pairwise_cons.2 ⟨fun t ht => hfirst t (hsub.subset ht), hsorted.sublist hsub⟩)
      (fun t ht => by
        have hmem : t ∈ (check :: span).map Prod.snd := by
          rcases List.mem_cons.1 ht with rfl | ht
          · exact List.mem_cons_self
          · exact hsub.subset ht
        obtain ⟨c, hc, rfl⟩ := List.mem_map.1 hmem
        exact (hspan c hc).2)
    rw [hfree, pick_freely]
    refine hcount.trans (add_le_add ?_ ?_)
    · exact (level_le _ _ _ _).trans (after_fields _ before).1.le
    · rw [(after_fields _ before).2]
      have hsince := (hspan check List.mem_cons_self).1
      exact mul_le_mul_of_nonneg_right (by linarith) hrefill.le

/-- **A run that spares the buckets that have not refilled** decides as without a bound on the keys,
    and for each key as if there were no other; in a span of time it admits of a key no more than the
    capacity and the refill of the span. -/
theorem decisions_of_sparesAlong (hcapacity : 0 < capacity) (hrefill : 0 < refill) (hkeys : 0 < maxKeys)
    (hclock : (checks.map Prod.snd).Pairwise (· ≤ ·))
    (hspares : (made capacity refill maxKeys).SparesAlong checks) :
    (∀ unbounded, checks.length < unbounded → (made capacity refill maxKeys).decisions checks
          = (made capacity refill unbounded).decisions checks)
      ∧ (∀ key, pick key checks ((made capacity refill maxKeys).decisions checks)
        = (made capacity refill maxKeys).decisions (checks.filter (fun check => check.1 = key)))
      ∧ ∀ before span rest key since till, checks = before ++ span ++ rest → since ≤ till →
        (∀ check ∈ span, since ≤ check.2 ∧ check.2 ≤ till) →
        ((pick key span (((made capacity refill maxKeys).after before).decisions span)).count true : Rat)
          ≤ capacity + (till - since) * refill := by
  have hrun := decisions_made hcapacity hrefill hkeys hclock hspares
  refine ⟨fun unbounded hlarge => ?_, fun key => ?_, ?_⟩
  · rw [hrun, decisions_made hcapacity hrefill (by omega) hclock]
    exact sparesAlong_of_subset (checks.map Prod.fst) (by simpa [made] using hlarge.le)
      (List.nil_subset _) (fun check hcheck => List.mem_map_of_mem hcheck)
  · rw [hrun, pick_freely, decisions_made hcapacity hrefill hkeys]
    · rw [freely_of_key _ _ key]
      exact fun check hcheck => of_decide_eq_true (List.mem_filter.1 hcheck).2
    · exact hclock.sublist (List.filter_sublist.map _)
    · refine sparesAlong_of_subset [key] hkeys (List.nil_subset _) fun check hcheck => ?_
      exact List.mem_singleton.2 (of_decide_eq_true (List.mem_filter.1 hcheck).2)
  · rintro before span rest key since till rfl hle hspan
    rw [List.map_append] at hclock
    exact count_pick_le hcapacity hrefill hkeys (List.pairwise_append.1 hclock).1
      (sparesAlong_append.1 hspares).1 hle hspan

end Runs

/-- Two buckets, the first of which is dropped once it has refilled. -/
theorem decisions_of_sparesAlong_refilled :
    (made 1 1 2).decisions [("a", 0), ("b", 0), ("c", 1), ("a", 1)]
      = (made 1 1 5).decisions [("a", 0), ("b", 0), ("c", 1), ("a", 1)] := by
  refine (decisions_of_sparesAlong (by decide) (by decide) (by decide) (by decide +kernel) ?_).1 5 (by decide)
  refine ⟨.inr (.inl (by decide +kernel)), .inr (.inl (by decide +kernel)), ?_, ?_, trivial⟩
  · exact .inr (.inr (.inr ⟨("a", 0, 0), by decide +kernel, by decide +kernel⟩))
  · exact .inr (.inr (.inr ⟨("b", 0, 0), by decide +kernel, by decide +kernel⟩))

def FewDraining (bound : Nat) : RateLimiter → List (String × Rat) → Prop
  | _, [] => True
  | limiter, (key, now) :: checks =>
    let next := (limiter.check key now).1
    next.buckets.items.countP (fun bucket => next.tokens bucket.1 now < next.capacity) ≤ bound
      ∧ FewDraining bound next checks

def BoundUnseen (capacity refill : Rat) (maxKeys : Nat) : Prop :=
  ∀ (checks : List (String × Rat)) (unbounded : Nat), (checks.map Prod.snd).Pairwise (· ≤ ·) →
    checks.length < unbounded → FewDraining maxKeys (made capacity refill unbounded) checks →
    (made capacity refill maxKeys).decisions checks = (made capacity refill unbounded).decisions checks

/-- The bucket of `a` drains when `c` comes, and is dropped in place of the bucket of `b`, which has
    refilled. -/
theorem not_boundUnseen : ¬ BoundUnseen 2 1 2 := by
  intro h
  have hrun := h [("a", 0), ("a", 0), ("b", 1 / 2), ("c", 8 / 5), ("a", 8 / 5), ("a", 8 / 5)] 7
    (by decide +kernel) (by decide) (by
      refine ⟨?_, ?_, ?_, ?_, ?_, ?_, trivial⟩ <;> decide +kernel)
  exact absurd hrun (by decide +kernel)

end RateLimiter

end Himmy.Connectors
