import Mathlib.Algebra.Order.BigOperators.Group.List
import Mathlib.Data.Nat.Digits.Lemmas
import Himmy.Inference.GemmaLoops

/-! # Where the Gemma parser ends

The loops of the parser, without what they collect, are a machine over the frames that are open and
the text that is left (`Position`, `Position.next`). Every step of it takes a character or closes a
frame, but for one: an array in front of a `}` reads an empty scalar there, takes nothing, and comes
back to the same place. The parser returns exactly when its machine never comes to such a place, and
to no integer that is too long for `int` (`parse_ends_iff`). -/

namespace Himmy.Gemma

open Run (ok_andThen ok_inj andThen_eq_ok_iff)

variable {floatOf : List Char → FloatLiteral} {fuel : Nat} {s t : List Char}

/-! ## Sizes -/

mutual

/-- The nodes of a value, the characters of its texts and keys, and the digits of its integers. -/
def size : Value → Nat
  | .str s => 1 + s.toList.length
  | .int n => 1 + (Nat.digits 10 n.natAbs).length
  | .list xs => 1 + sizeElements xs
  | .dict kvs => 1 + sizeFields kvs
  | .object text => 1 + text.toList.length
  | .null => 1
  | .bool _ => 1
  | .float _ => 1

def sizeElements : List Value → Nat
  | [] => 0
  | x :: xs => size x + sizeElements xs

def sizeFields : List (String × Value) → Nat
  | [] => 0
  | (k, x) :: kvs => k.toList.length + size x + sizeFields kvs

end

theorem sizeElements_append (xs ys : List Value) :
    sizeElements (xs ++ ys) = sizeElements xs + sizeElements ys := by
  induction xs with
  | nil => simp [sizeElements]
  | cons x xs ih => simp [sizeElements, ih, Nat.add_assoc]

theorem sizeFields_append (xs ys : List (String × Value)) :
    sizeFields (xs ++ ys) = sizeFields xs + sizeFields ys := by
  induction xs with
  | nil => simp [sizeFields]
  | cons x xs ih => simp [sizeFields, ih, Nat.add_assoc]

theorem sizeFields_replace_le {l : List (String × Value)} (hnodup : (l.map Prod.fst).Nodup)
    (k : String) (v : Value) : sizeFields (l.map (fun b => if b.1 = k then (k, v) else b))
      ≤ sizeFields l + (k.toList.length + size v) := by
  induction l with
  | nil => simp [sizeFields]
  | cons b l ih =>
    obtain ⟨hb, hnodup⟩ := List.nodup_cons.1 hnodup
    rw [List.map_cons]
    by_cases hkey : b.1 = k
    · -- no other item has the key
      have hrest : l.map (fun b => if b.1 = k then (k, v) else b) = l := by
        refine (List.map_congr_left (fun c hc => ?_)).trans (List.map_id l)
        have hne : c.1 ≠ k := by
          intro h
          rw [hkey, ← h] at hb
          exact hb (List.mem_map_of_mem hc)
        rw [if_neg hne]
        rfl
      rw [if_pos hkey, hrest, sizeFields, sizeFields]
      omega
    · have hle := ih hnodup
      rw [if_neg hkey, sizeFields, sizeFields]
      omega

theorem sizeFields_set_le (obj : Dict Value) (k : String) (v : Value) :
    sizeFields (obj.set k v).items ≤ sizeFields obj.items + (k.toList.length + size v) := by
  unfold Dict.set
  cases h : KeyedList.get? obj k with
  | none =>
    rw [KeyedList.items_put_of_none obj (k, v) h, sizeFields_append]
    simp [sizeFields]
  | some b =>
    rw [KeyedList.items_put_of_some obj (k, v) b h]
    exact sizeFields_replace_le obj.nodup_keys k v

theorem digitValue_lt {c : Char} {n : Nat} (h : digitValue c = some n) : n < 10 := by
  obtain ⟨first, hfirst, rfl⟩ := Option.map_eq_some_iff.1 h
  have hfound := List.find?_some hfirst
  simp only [Bool.and_eq_true, decide_eq_true_eq] at hfound
  omega

theorem natOf_lt (digits : List Char) : natOf digits < 10 ^ digits.length := by
  induction digits using List.reverseRecOn with
  | nil => decide
  | append_singleton digits c ih =>
    have hc : (digitValue c).getD 0 < 10 := by
      cases h : digitValue c with
      | none => decide
      | some n => exact digitValue_lt h
    rw [natOf, List.foldl_append, List.length_append, List.length_singleton, pow_succ]
    show 10 * natOf digits + (digitValue c).getD 0 < _
    omega

theorem natAbs_of_intOf {raw : List Char} {n : Int} (h : intOf raw = .ok n) :
    n.natAbs = natOf (unsigned raw) := by
  unfold intOf at h
  split at h
  · cases h
  · cases h
    split_ifs <;> simp

variable {v : Value}

theorem size_coerceScalar {raw : List Char} (h : coerceScalar floatOf raw = .ok v) :
    size v ≤ 1 + raw.length := by
  unfold coerceScalar at h
  split_ifs at h with htrue hfalse hnull hint hfraction
  · cases h
    simp [size]
  · cases h
    simp [size]
  · cases h
    simp [size]
  · cases hn : intOf raw with
    | error e =>
      rw [hn] at h
      cases h
    | ok n =>
      rw [hn] at h
      cases h
      have hunsigned : (unsigned raw).length ≤ raw.length := by
        unfold unsigned
        split <;> simp
      have hlt := natOf_lt (unsigned raw)
      have hdigits := (Nat.digits_length_le_iff (by decide) (natOf (unsigned raw))).2 hlt
      rw [size, natAbs_of_intOf hn]
      omega
  · cases h
    simp [size]
  · cases h
    simp [size]

/-! ## What is consumed -/

theorem length_pyStrip_le (p : Char → Bool) (l : List Char) : (pyStrip p l).length ≤ l.length := by
  rw [pyStrip, List.length_reverse]
  refine (List.dropWhile_sublist _).length_le.trans ?_
  rw [List.length_reverse]
  exact (List.dropWhile_sublist _).length_le

theorem item_object (h : Frame.object.item s = some t) : skipWs s = keyAt s ++ ':' :: t := by
  unfold Frame.item at h
  split_ifs at h
  obtain ⟨⟨k, t'⟩, hcut, ht⟩ := Option.map_eq_some_iff.1 h
  have ht : t' = t := ht
  rw [keyAt, hcut, ← ht]
  exact cut_eq_some hcut

theorem item_array (h : Frame.array.item s = some t) :
    skipWs s = t ∧ ∃ c cs, t = c :: cs ∧ c ≠ ']' := by
  unfold Frame.item at h
  split_ifs at h with hends
  obtain rfl : skipWs s = t := Option.some.inj h
  obtain ⟨hne, hclose⟩ := not_or.1 hends
  obtain ⟨c, cs, hcs⟩ := List.exists_cons_of_ne_nil hne
  refine ⟨rfl, c, cs, hcs, ?_⟩
  rintro rfl
  exact hclose (by rw [hcs]; rfl)

theorem length_item_le {f : Frame} (h : f.item s = some t) : t.length ≤ s.length := by
  have hws := length_skipWs_le s
  cases f with
  | object =>
    rw [item_object h, List.length_append, List.length_cons] at hws
    omega
  | array => exact (item_array h).1 ▸ hws

theorem length_left_le (f : Frame) (s : List Char) : (f.left s).length ≤ s.length := by
  have hws := length_skipWs_le s
  unfold Frame.left
  split_ifs
  · rw [List.length_tail]
    omega
  · exact Nat.zero_le _

/-- What a value takes of a text: it is not larger than twice what it takes, and unless a closing
    bracket stands there it takes at least a character, with the comma behind it. -/
structure Consumes (s : List Char) (v : Value) (rest : List Char) : Prop where
  le : rest.length ≤ s.length
  size_le : size v ≤ max 1 (2 * (s.length - rest.length))
  progress : ∀ c cs, skipWs s = c :: cs → c ≠ '}' → c ≠ ']' → (skipComma rest).length ≤ cs.length

theorem Consumes.length_lt {f : Frame} {rest : List Char} (h : Consumes t v rest)
    (hitem : f.item s = some t) (hblocked : f = .array → (skipWs s).head? ≠ some '}') :
    (skipComma rest).length < s.length := by
  have hcomma := length_skipComma_le rest
  have hws := length_skipWs_le s
  have hle := h.le
  cases f with
  | object =>
    rw [item_object hitem, List.length_append, List.length_cons] at hws
    omega
  | array =>
    obtain ⟨hskip, c, cs, rfl, hclose⟩ := item_array hitem
    have hbrace : c ≠ '}' := by
      rintro rfl
      exact hblocked rfl (by rw [hskip]; rfl)
    have hprogress := h.progress c cs (by rw [← hskip, skipWs_skipWs, hskip]) hbrace hclose
    rw [hskip, List.length_cons] at hws
    omega

theorem parseValue_close {cs : List Char} (h : skipWs s = '}' :: cs) :
    parseValue floatOf (fuel + 1) s = Run.ok (.str "", '}' :: cs) := by
  have hscalar : IsScalar s := by
    refine ⟨by simp [h], ?_, by simp [h], by simp [h]⟩
    rw [h, ← List.isPrefixOf_iff_prefix, not_isPrefixOf_strDelimiter cs (by decide)]
    exact Bool.false_ne_true
  have hscan : scanScalar 0 ('}' :: cs) = ([], '}' :: cs) := by simp [scanScalar]
  have hcoerce : coerceScalar floatOf (pyStrip isPySpace []) = .ok (.str "") := rfl
  rw [parseValue_scalar hscalar, scalarAt, h, hscan, hcoerce]
  rfl

theorem loop_blocked {σ : Type} {add : σ → List Char → Value → σ} {acc : σ} {n : Nat} {cs : List Char}
    (h : skipWs s = '}' :: cs) (r : Except String (σ × List Char)) :
    loop .array add (parseValue floatOf n) fuel acc s ≠ some r := by
  induction fuel generalizing acc s with
  | zero => simp [loop]
  | succ fuel ih =>
    have hitem : Frame.array.item s = some ('}' :: cs) := by
      simp [Frame.item, Frame.Ends, Frame.close, h]
    have hskip : skipWs ('}' :: cs) = '}' :: cs := skipWs_eq_of_head (by decide)
    rw [loop, hitem, Option.elim_some]
    cases n with
    | zero => simp [parseValue, Run.andThen]
    | succ n =>
      rw [parseValue_close hskip, ok_andThen]
      exact ih (by simp [skipComma, hskip])

theorem loop_consumes {σ : Type} {f : Frame} {add : σ → List Char → Value → σ} (weight : σ → Nat)
    (hadd : ∀ acc s v t, f.item s = some t →
      weight (add acc s v) + t.length ≤ weight acc + s.length + size v)
    {n : Nat} (hvalue : ∀ s v rest, parseValue floatOf n s = Run.ok (v, rest) → Consumes s v rest)
    {acc acc' : σ} {rest : List Char}
    (h : loop f add (parseValue floatOf n) fuel acc s = Run.ok (acc', rest)) :
    rest.length ≤ s.length ∧ weight acc' ≤ weight acc + 2 * (s.length - rest.length) := by
  induction fuel generalizing acc s with
  | zero => cases h
  | succ fuel ih =>
    by_cases hblocked : f = .array ∧ (skipWs s).head? = some '}'
    · obtain ⟨rfl, hhead⟩ := hblocked
      obtain ⟨cs, hcs⟩ := List.head?_eq_some_iff.1 hhead
      exact absurd h (loop_blocked hcs _)
    rw [loop] at h
    cases hitem : f.item s with
    | none =>
      rw [hitem, Option.elim_none, ok_inj, Prod.mk.injEq] at h
      obtain ⟨rfl, rfl⟩ := h
      have hleft := length_left_le f s
      omega
    | some t =>
      rw [hitem, Option.elim_some, andThen_eq_ok_iff] at h
      obtain ⟨⟨v, rest'⟩, hv, hrest⟩ := h
      have hconsumes := hvalue t v rest' hv
      have hlt := hconsumes.length_lt hitem (fun hf hhead => hblocked ⟨hf, hhead⟩)
      have hcomma := length_skipComma_le rest'
      have ht := length_item_le hitem
      have hweight := hadd acc s v t hitem
      have hsize := hconsumes.size_le
      have hle := hconsumes.le
      obtain ⟨hle', hweight'⟩ := ih hrest
      simp only at hle' hweight'
      omega

theorem addItem_le (obj : Dict Value) (s : List Char) (v : Value) (t : List Char)
    (h : Frame.object.item s = some t) :
    sizeFields (addItem obj s v).items + t.length ≤ sizeFields obj.items + s.length + size v := by
  have hset := sizeFields_set_le obj (String.ofList (pyStrip isPySpace (keyAt s))) v
  have hstrip := length_pyStrip_le isPySpace (keyAt s)
  have hws := length_skipWs_le s
  rw [item_object h, List.length_append, List.length_cons] at hws
  rw [String.toList_ofList] at hset
  unfold addItem
  omega

theorem addElement_le (arr : List Value) (s : List Char) (v : Value) (t : List Char)
    (h : Frame.array.item s = some t) :
    sizeElements (addElement arr s v) + t.length ≤ sizeElements arr + s.length + size v := by
  have ht := length_item_le h
  rw [addElement, sizeElements_append, sizeElements, sizeElements]
  omega

theorem Consumes.of_cons {c : Char} {cs rest : List Char} (hskip : skipWs s = c :: cs)
    (hle : rest.length ≤ cs.length) (hsize : size v ≤ 2 * (s.length - rest.length)) :
    Consumes s v rest := by
  have hws := length_skipWs_le s
  have hcomma := length_skipComma_le rest
  rw [hskip, List.length_cons] at hws
  refine ⟨by omega, by omega, ?_⟩
  intro c' cs' hcs _ _
  obtain ⟨rfl, rfl⟩ := List.cons.inj (hskip.symm.trans hcs)
  omega

theorem consumes_text (h : strDelimiter <+: skipWs s) :
    Consumes s (.str (String.ofList (textAt s).1)) (textAt s).2 := by
  obtain ⟨rest, hrest⟩ := h
  have hws := length_skipWs_le s
  have hdelimiter : strDelimiter.length = 5 := by decide
  have hdrop : (skipWs s).drop strDelimiter.length = rest := by rw [← hrest, List.drop_left]
  have hlength : (textAt s).1.length + (textAt s).2.length ≤ rest.length := by
    unfold textAt
    rw [hdrop]
    cases hcut : cut strDelimiter rest with
    | none => simp
    | some p =>
      have heq := congrArg List.length (cut_eq_some hcut)
      simp only [List.length_append] at heq
      simp only [Option.getD_some]
      omega
  rw [← hrest, List.length_append] at hws
  obtain ⟨c, cs, hcs⟩ := List.exists_cons_of_ne_nil (l := skipWs s) (by
    intro hnil
    have hlen := congrArg List.length (hrest.trans hnil)
    rw [List.length_append, List.length_nil] at hlen
    omega)
  have hcs' := congrArg List.length (hrest.trans hcs)
  rw [List.length_append, List.length_cons] at hcs'
  refine Consumes.of_cons hcs (by omega) ?_
  rw [size, String.toList_ofList]
  omega

theorem consumes_scalar (h : IsScalar s)
    (hv : coerceScalar floatOf (scalarAt s).1 = .ok v) : Consumes s v (scalarAt s).2 := by
  obtain ⟨c, cs, hcs⟩ := List.exists_cons_of_ne_nil h.ne_nil
  have hws := length_skipWs_le s
  have hsize := size_coerceScalar hv
  have hstrip := length_pyStrip_le isPySpace (scanScalar 0 (skipWs s)).1
  have happend := congrArg List.length (append_scanScalar 0 (skipWs s))
  have hopen : c ≠ '{' ∧ c ≠ '[' := by
    constructor
    · rintro rfl
      exact h.not_object (by rw [hcs]; rfl)
    · rintro rfl
      exact h.not_array (by rw [hcs]; rfl)
  rw [List.length_append, hcs, List.length_cons] at happend
  rw [hcs, List.length_cons] at hws
  rcases scanScalar_zero_cons cs hopen with ⟨hclose, hscan⟩ | hscan
  · -- an empty scalar in front of a bracket or a comma
    have hraw : (scalarAt s).1 = [] := by rw [scalarAt, hcs, hscan]; rfl
    have hrest : (scalarAt s).2 = c :: cs := by rw [scalarAt, hcs, hscan]
    rw [hraw] at hsize
    rw [hrest]
    refine ⟨by simpa using hws, hsize.trans (Nat.le_max_left _ _), ?_⟩
    intro c' cs' hcs' hbrace hbracket
    obtain ⟨rfl, rfl⟩ := List.cons.inj (hcs.symm.trans hcs')
    obtain rfl : c = ',' := by tauto
    simp [skipComma, skipWs_eq_of_head]
  · have hpos := List.length_pos_iff.2 hscan
    rw [← hcs] at hpos happend
    simp only [scalarAt] at hsize ⊢
    exact Consumes.of_cons hcs (by omega) (by omega)

theorem parseValue_consumes {rest : List Char}
    (h : parseValue floatOf fuel s = Run.ok (v, rest)) : Consumes s v rest := by
  induction fuel generalizing s v rest with
  | zero => cases h
  | succ fuel ih =>
    have hws := length_skipWs_le s
    rcases value_forms s with hform | hform | ⟨t, hform⟩ | ⟨t, hform⟩ | hform
    · rw [parseValue_nil hform, ok_inj, Prod.mk.injEq] at h
      obtain ⟨rfl, rfl⟩ := h
      exact ⟨Nat.zero_le _, by simp [size], fun c cs hcs => by rw [hform] at hcs; cases hcs⟩
    · rw [parseValue_text hform, ok_inj, Prod.mk.injEq] at h
      obtain ⟨rfl, rfl⟩ := h
      exact consumes_text hform
    · rw [parseValue_object hform, andThen_eq_ok_iff] at h
      obtain ⟨⟨obj, rest'⟩, hloop, hpair⟩ := h
      obtain ⟨hle, hweight⟩ := loop_consumes (fun obj : Dict Value => sizeFields obj.items)
        addItem_le (fun s v rest => ih) hloop
      obtain ⟨rfl, rfl⟩ := Prod.mk.inj (ok_inj.1 hpair)
      rw [hform, List.length_cons] at hws
      simp only [KeyedList.items_empty, sizeFields] at hle hweight ⊢
      exact Consumes.of_cons hform hle (by rw [size]; omega)
    · rw [parseValue_array hform, andThen_eq_ok_iff] at h
      obtain ⟨⟨arr, rest'⟩, hloop, hpair⟩ := h
      obtain ⟨hle, hweight⟩ := loop_consumes sizeElements addElement_le (fun s v rest => ih) hloop
      obtain ⟨rfl, rfl⟩ := Prod.mk.inj (ok_inj.1 hpair)
      rw [hform, List.length_cons] at hws
      simp only [sizeElements] at hle hweight ⊢
      exact Consumes.of_cons hform hle (by rw [size]; omega)
    · rw [parseValue_scalar hform] at h
      obtain ⟨v', hv, hpair⟩ : ∃ v', coerceScalar floatOf (scalarAt s).1 = .ok v'
          ∧ (v', (scalarAt s).2) = (v, rest) := by
        cases hcoerce : coerceScalar floatOf (scalarAt s).1 with
        | error e =>
          rw [hcoerce] at h
          cases h
        | ok v' =>
          rw [hcoerce] at h
          exact ⟨v', rfl, Except.ok.inj (Option.some.inj h)⟩
      obtain ⟨rfl, rfl⟩ := Prod.mk.inj hpair
      exact consumes_scalar hform hv

/-! ## The machine -/

/-- An iteration of the innermost open loop begins with a text. -/
structure Position where
  frames : List Frame
  rest : List Char
  deriving DecidableEq

/-- A value is read inside some open loops, or its own loop is opened. -/
def enter (frames : List Frame) (s : List Char) : Position :=
  if skipWs s = [] then ⟨frames, []⟩
  else if strDelimiter.isPrefixOf (skipWs s) then ⟨frames, skipComma (textAt s).2⟩
  else if (skipWs s).head? = some '{' then ⟨.object :: frames, (skipWs s).tail⟩
  else if (skipWs s).head? = some '[' then ⟨.array :: frames, (skipWs s).tail⟩
  else ⟨frames, skipComma (scalarAt s).2⟩

variable (p : Position)

/-- The next iteration: it comes to a value, or its loop ends and the one around it goes on. -/
def Position.next : Option Position :=
  p.frames.head?.map fun f =>
    (f.item p.rest).elim ⟨p.frames.tail, skipComma (f.left p.rest)⟩ (enter p.frames)

/-- An array is to read an element in front of a closing brace. -/
def Position.Blocked : Prop :=
  p.frames.head? = some .array ∧ (skipWs p.rest).head? = some '}'

def TooLong (s : List Char) : Prop :=
  IsScalar s ∧ isInteger (scalarAt s).1 = true ∧ maxStrDigits < (unsigned (scalarAt s).1).length

/-- An iteration comes to an integer with too many digits. -/
def Position.Oversized : Prop :=
  ∃ f ∈ p.frames.head?, ∃ t ∈ f.item p.rest, TooLong t

def Position.Fails : Prop := p.Blocked ∨ p.Oversized

def Position.Next (p q : Position) : Prop := ¬ p.Fails ∧ p.next = some q

def Reaches : Position → Position → Prop := Relation.ReflTransGen Position.Next

def Position.begin (body : List Char) : Position := ⟨[.object], pyStrip isPySpace body ++ ['}']⟩

variable {frames : List Frame}

theorem enter_nil (h : skipWs s = []) : enter frames s = ⟨frames, []⟩ := by
  simp [enter, h]

theorem enter_text (h : strDelimiter <+: skipWs s) :
    enter frames s = ⟨frames, skipComma (textAt s).2⟩ := by
  have hne : skipWs s ≠ [] := by
    intro hnil
    rw [hnil, List.prefix_nil] at h
    exact absurd h (by decide)
  rw [enter, if_neg hne, if_pos (List.isPrefixOf_iff_prefix.2 h)]

theorem enter_object (h : skipWs s = '{' :: t) : enter frames s = ⟨.object :: frames, t⟩ := by
  have hdelimiter := not_isPrefixOf_strDelimiter t (show '{' ≠ '<' by decide)
  simp [enter, h, hdelimiter]

theorem enter_array (h : skipWs s = '[' :: t) : enter frames s = ⟨.array :: frames, t⟩ := by
  have hdelimiter := not_isPrefixOf_strDelimiter t (show '[' ≠ '<' by decide)
  simp [enter, h, hdelimiter]

theorem enter_scalar (h : IsScalar s) : enter frames s = ⟨frames, skipComma (scalarAt s).2⟩ := by
  have hdelimiter : ¬ strDelimiter.isPrefixOf (skipWs s) = true := fun hp =>
    h.not_text (List.isPrefixOf_iff_prefix.1 hp)
  rw [enter, if_neg h.ne_nil, if_neg hdelimiter, if_neg h.not_object, if_neg h.not_array]

variable (floatOf) in
theorem coerceScalar_cases (raw : List Char) : (∃ v, coerceScalar floatOf raw = .ok v)
      ∨ isInteger raw = true ∧ maxStrDigits < (unsigned raw).length
        ∧ ∃ e, coerceScalar floatOf raw = .error e := by
  unfold coerceScalar
  split_ifs with htrue hfalse hnull hint hfraction
  · exact Or.inl ⟨_, rfl⟩
  · exact Or.inl ⟨_, rfl⟩
  · exact Or.inl ⟨_, rfl⟩
  · unfold intOf
    split_ifs with hlong
    · exact Or.inr ⟨hint, hlong, _, rfl⟩
    · exact Or.inl ⟨_, rfl⟩
    · exact Or.inl ⟨_, rfl⟩
  · exact Or.inl ⟨_, rfl⟩
  · exact Or.inl ⟨_, rfl⟩

theorem coerceScalar_of_long {raw : List Char} (hint : isInteger raw = true)
    (hlong : maxStrDigits < (unsigned raw).length) (v : Value) :
    coerceScalar floatOf raw ≠ .ok v := by
  have hword : ∀ word : List Char, isInteger word = false → raw ≠ word := by
    rintro word hword rfl
    rw [hint] at hword
    cases hword
  have hnull : ¬ (raw = "null".toList || raw = "None".toList) = true := by
    simp only [Bool.or_eq_true, decide_eq_true_eq]
    rintro (h | h)
    · exact hword _ (by decide) h
    · exact hword _ (by decide) h
  rw [coerceScalar, if_neg (hword _ (by decide)), if_neg (hword _ (by decide)), if_neg hnull,
    if_pos hint, intOf, if_pos hlong]
  simp [Except.map]

theorem parseValue_of_tooLong (h : TooLong s) (p : Value × List Char) :
    parseValue floatOf fuel s ≠ Run.ok p := by
  cases fuel with
  | zero => simp [parseValue, Run.ok]
  | succ fuel =>
    obtain ⟨hscalar, hint, hlong⟩ := h
    rw [parseValue_scalar hscalar]
    cases hcoerce : coerceScalar floatOf (scalarAt s).1 with
    | error e => simp [Except.map, Run.ok]
    | ok v => exact absurd hcoerce (coerceScalar_of_long hint hlong v)

/-! ## Either the machine or the parser -/

/-- A value is read and the machine comes behind it, or it is never read and the machine fails. -/
def ValueSettled (floatOf : List Char → FloatLiteral) (s : List Char) : Prop := ∀ frames,
  (∃ fuel v rest, parseValue floatOf fuel s = Run.ok (v, rest)
      ∧ Reaches (enter frames s) ⟨frames, skipComma rest⟩)
    ∨ (∀ fuel p, parseValue floatOf fuel s ≠ Run.ok p)
      ∧ (TooLong s ∨ ∃ p, Reaches (enter frames s) p ∧ p.Fails)

def LoopSettled (floatOf : List Char → FloatLiteral) {σ : Type} (f : Frame)
    (add : σ → List Char → Value → σ) (s : List Char) : Prop := ∀ acc frames,
  (∃ fuel acc' rest, loop f add (parseValue floatOf fuel) fuel acc s = Run.ok (acc', rest)
      ∧ Reaches ⟨f :: frames, s⟩ ⟨frames, skipComma rest⟩)
    ∨ (∀ n fuel p, loop f add (parseValue floatOf n) fuel acc s ≠ Run.ok p)
      ∧ ∃ p, Reaches ⟨f :: frames, s⟩ p ∧ p.Fails

theorem next_of_item {f : Frame} {frames : List Frame} (h : f.item s = some t) :
    Position.next ⟨f :: frames, s⟩ = some (enter (f :: frames) t) := by
  simp [Position.next, h]

theorem next_of_end {f : Frame} {frames : List Frame} (h : f.item s = none) :
    Position.next ⟨f :: frames, s⟩ = some ⟨frames, skipComma (f.left s)⟩ := by
  simp [Position.next, h]

theorem loopSettled {σ : Type} (f : Frame) (add : σ → List Char → Value → σ) {s : List Char}
    (hvalue : ∀ t : List Char, t.length ≤ s.length → ValueSettled floatOf t) :
    LoopSettled floatOf f add s := by
  induction hn : s.length using Nat.strong_induction_on generalizing s with
  | _ n ih =>
    subst hn
    intro acc frames
    by_cases hfails : Position.Fails ⟨f :: frames, s⟩
    · -- the position itself fails
      refine Or.inr ⟨?_, _, .refl, hfails⟩
      intro n fuel p hp
      rcases hfails with ⟨hf, hhead⟩ | ⟨g, hg, t, ht, hlong⟩
      · obtain rfl : f = .array := Option.some.inj hf
        obtain ⟨cs, hcs⟩ := List.head?_eq_some_iff.1 hhead
        exact loop_blocked hcs _ hp
      · obtain rfl : f = g := Option.some.inj hg
        cases fuel with
        | zero => cases hp
        | succ fuel =>
          have ht : f.item s = some t := ht
          rw [loop, ht, Option.elim_some, andThen_eq_ok_iff] at hp
          obtain ⟨q, hq, -⟩ := hp
          exact parseValue_of_tooLong hlong q hq
    cases hitem : f.item s with
    | none =>
      refine Or.inl ⟨1, acc, f.left s, ?_, .single ⟨hfails, next_of_end hitem⟩⟩
      rw [loop, hitem, Option.elim_none]
    | some t =>
      have hstep : Position.Next ⟨f :: frames, s⟩ (enter (f :: frames) t) :=
        ⟨hfails, next_of_item hitem⟩
      have hlong : ¬ TooLong t := fun hlong => hfails (Or.inr ⟨f, rfl, t, hitem, hlong⟩)
      rcases hvalue t (length_item_le hitem) (f :: frames) with
        ⟨m, v, rest, hv, hreach⟩ | ⟨hnever, hbad⟩
      · -- the value is read, and the loop goes on behind it
        have hlt := (parseValue_consumes hv).length_lt hitem (fun hf hhead =>
          hfails (Or.inl ⟨congrArg some hf, hhead⟩))
        have hrest := ih (skipComma rest).length hlt
          (fun t ht => hvalue t (ht.trans hlt.le)) rfl (add acc s v) frames
        rcases hrest with ⟨k, acc', rest', hloop, hreach'⟩ | ⟨hnever, p, hreach', hp⟩
        · refine Or.inl ⟨max m k + 1, acc', rest', ?_, .head hstep (hreach.trans hreach')⟩
          have hv' := parseValue_extends (show m ≤ max m k + 1 by omega) t _ hv
          have hloop' := loop_extends (fun s => parseValue_extends
            (show k ≤ max m k + 1 by omega) s) (Nat.le_max_right m k) _ _ _ hloop
          rw [loop, hitem, Option.elim_some, hv']
          exact hloop'
        · refine Or.inr ⟨?_, p, .head hstep (hreach.trans hreach'), hp⟩
          intro n fuel q hq
          cases fuel with
          | zero => cases hq
          | succ fuel =>
            rw [loop, hitem, Option.elim_some, andThen_eq_ok_iff] at hq
            obtain ⟨⟨v', rest'⟩, hv', hq⟩ := hq
            obtain ⟨rfl, rfl⟩ := Prod.mk.inj (parseValue_unique hv hv')
            exact hnever n fuel q hq
      · obtain ⟨p, hreach, hp⟩ := hbad.resolve_left hlong
        refine Or.inr ⟨?_, p, .head hstep hreach, hp⟩
        intro n fuel q hq
        cases fuel with
        | zero => cases hq
        | succ fuel =>
          rw [loop, hitem, Option.elim_some, andThen_eq_ok_iff] at hq
          obtain ⟨q', hq', -⟩ := hq
          exact hnever n q' hq'

variable (floatOf) in
theorem valueSettled (s : List Char) : ValueSettled floatOf s := by
  induction hn : s.length using Nat.strong_induction_on generalizing s with
  | _ n ih =>
    subst hn
    intro frames
    have hws := length_skipWs_le s
    rcases value_forms s with h | h | ⟨t, h⟩ | ⟨t, h⟩ | h
    · refine Or.inl ⟨1, _, _, parseValue_nil h, ?_⟩
      rw [enter_nil h]
      exact .refl
    · refine Or.inl ⟨1, _, _, parseValue_text h, ?_⟩
      rw [enter_text h]
      exact .refl
    · rw [h, List.length_cons] at hws
      have hloop : LoopSettled floatOf .object addItem t :=
        loopSettled _ _ (fun u hu => ih u.length (by omega) u rfl)
      rw [enter_object h]
      rcases hloop KeyedList.empty frames with ⟨k, obj, rest, hloop, hreach⟩ | ⟨hnever, p, hreach, hp⟩
      · refine Or.inl ⟨k + 1, .dict obj.items, rest, ?_, hreach⟩
        rw [parseValue_object h, hloop, ok_andThen]
      · refine Or.inr ⟨?_, Or.inr ⟨p, hreach, hp⟩⟩
        intro fuel q hq
        cases fuel with
        | zero => cases hq
        | succ fuel =>
          rw [parseValue_object h, andThen_eq_ok_iff] at hq
          obtain ⟨q', hq', -⟩ := hq
          exact hnever fuel fuel q' hq'
    · rw [h, List.length_cons] at hws
      have hloop : LoopSettled floatOf .array addElement t :=
        loopSettled _ _ (fun u hu => ih u.length (by omega) u rfl)
      rw [enter_array h]
      rcases hloop [] frames with ⟨k, arr, rest, hloop, hreach⟩ | ⟨hnever, p, hreach, hp⟩
      · refine Or.inl ⟨k + 1, .list arr, rest, ?_, hreach⟩
        rw [parseValue_array h, hloop, ok_andThen]
      · refine Or.inr ⟨?_, Or.inr ⟨p, hreach, hp⟩⟩
        intro fuel q hq
        cases fuel with
        | zero => cases hq
        | succ fuel =>
          rw [parseValue_array h, andThen_eq_ok_iff] at hq
          obtain ⟨q', hq', -⟩ := hq
          exact hnever fuel fuel q' hq'
    · rw [enter_scalar h]
      rcases coerceScalar_cases floatOf (scalarAt s).1 with ⟨v, hv⟩ | ⟨hint, hlong, -⟩
      · refine Or.inl ⟨1, v, (scalarAt s).2, ?_, .refl⟩
        rw [parseValue_scalar h, hv]
        rfl
      · have hlong : TooLong s := ⟨h, hint, hlong⟩
        exact Or.inr ⟨fun fuel p => parseValue_of_tooLong hlong p, Or.inl hlong⟩

/-! ## The arguments of a call -/

theorem rightUnique_next : Relator.RightUnique Position.Next := by
  rintro p q r ⟨-, hq⟩ ⟨-, hr⟩
  exact Option.some.inj (hq.symm.trans hr)

theorem not_fails_of_reaches {p q : Position} {rest : List Char} (hend : Reaches p ⟨[], rest⟩)
    (h : Reaches p q) : ¬ q.Fails := by
  intro hfails
  have hlast : q = ⟨[], rest⟩ := by
    rcases Relation.ReflTransGen.total_of_right_unique rightUnique_next h hend with hle | hle
    · rcases Relation.ReflTransGen.cases_head hle with heq | ⟨r, hnext, -⟩
      · exact heq
      · exact absurd hfails hnext.1
    · rcases Relation.ReflTransGen.cases_head hle with heq | ⟨r, hnext, -⟩
      · exact heq.symm
      · cases hnext.2
  subst hlast
  rcases hfails with ⟨hf, -⟩ | ⟨f, hf, -⟩
  · cases hf
  · cases hf

theorem skipWs_braced (body : List Char) : skipWs (braced body) = braced body :=
  skipWs_eq_of_head (by decide)

variable (floatOf) in
theorem parseValue_braced_iff (body : List Char) :
    (∃ fuel p, parseValue floatOf fuel (braced body) = Run.ok p)
      ↔ ∀ p, Reaches (Position.begin body) p → ¬ p.Fails := by
  have hsettled := valueSettled floatOf (braced body) []
  rw [enter_object (skipWs_braced body)] at hsettled
  rcases hsettled with ⟨fuel, v, rest, hv, hreach⟩ | ⟨hnever, hbad⟩
  · exact iff_of_true ⟨fuel, _, hv⟩ (fun p hp => not_fails_of_reaches hreach hp)
  · refine iff_of_false (fun ⟨fuel, p, hp⟩ => hnever fuel p hp) ?_
    intro hgood
    rcases hbad with hlong | ⟨p, hreach, hfails⟩
    · exact hlong.1.not_object (by rw [skipWs_braced]; rfl)
    · exact hgood p hreach hfails

theorem parseArgs_returns_iff (body : List Char) :
    (∃ fuel args, parseArgs floatOf fuel body = Run.ok args)
      ↔ ∀ p, Reaches (Position.begin body) p → ¬ p.Fails := by
  rw [← parseValue_braced_iff floatOf]
  unfold parseArgs
  constructor
  · rintro ⟨fuel, args, hargs⟩
    split_ifs at hargs with hempty
    · refine ⟨2, (.dict [], []), ?_⟩
      have hloop : loop .object addItem (parseValue floatOf 1) 1 KeyedList.empty ['}']
          = Run.ok (KeyedList.empty, []) := rfl
      have hbraced : skipWs (braced body) = ['{', '}'] := by rw [skipWs_braced, braced, hempty]; rfl
      rw [parseValue_object hbraced, hloop]
      rfl
    · obtain ⟨p, hp, -⟩ := andThen_eq_ok_iff.1 hargs
      exact ⟨fuel, p, hp⟩
  · rintro ⟨fuel, p, hp⟩
    refine ⟨fuel, ?_⟩
    split_ifs
    · exact ⟨_, rfl⟩
    · rw [hp, ok_andThen]
      split <;> exact ⟨_, rfl⟩

theorem parseArgs_extends {fuel fuel' : Nat} (hfuel : fuel ≤ fuel') (body : List Char) :
    (parseArgs floatOf fuel body).Extends (parseArgs floatOf fuel' body) := by
  unfold parseArgs
  split_ifs
  · exact Run.Extends.refl _
  · exact (parseValue_extends hfuel _).andThen (fun _ => Run.Extends.refl _)

theorem sizeFields_parseArgs {body : List Char} {args : List (String × Value)}
    (h : parseArgs floatOf fuel body = Run.ok args) : sizeFields args ≤ 2 * (body.length + 2) := by
  unfold parseArgs at h
  split_ifs at h with hempty
  · cases h
    exact Nat.zero_le _
  obtain ⟨⟨v, rest⟩, hv, hargs⟩ := andThen_eq_ok_iff.1 h
  have hsize := (parseValue_consumes hv).size_le
  have hstrip := length_pyStrip_le isPySpace body
  have hbraced : (braced body).length = (pyStrip isPySpace body).length + 2 := by simp [braced]
  dsimp only at hargs
  split at hargs
  · cases hargs
    rw [size] at hsize
    omega
  · cases hargs
    exact Nat.zero_le _

/-! ## The calls of a text -/

def resultSize (calls : List Call) : Nat :=
  (calls.map fun call => 1 + call.toolName.toList.length + sizeFields call.args).sum

theorem callsOf_extends {fuel fuel' : Nat} (hfuel : fuel ≤ fuel') (found : List Hit) :
    (callsOf floatOf fuel found).Extends (callsOf floatOf fuel' found) := by
  induction found with
  | nil => exact Run.Extends.refl _
  | cons hit found ih =>
    exact (parseArgs_extends hfuel _).andThen (fun _ => ih.andThen (fun _ => Run.Extends.refl _))

theorem callsOf_returns_iff (found : List Hit) :
    (∃ fuel calls, callsOf floatOf fuel found = Run.ok calls)
      ↔ ∀ hit ∈ found, ∃ fuel args, parseArgs floatOf fuel hit.found.args = Run.ok args := by
  induction found with
  | nil => simp [callsOf]
  | cons hit found ih =>
    rw [List.forall_mem_cons, ← ih]
    constructor
    · rintro ⟨fuel, calls, h⟩
      obtain ⟨args, hargs, hrest⟩ := andThen_eq_ok_iff.1 h
      obtain ⟨calls', hcalls, -⟩ := andThen_eq_ok_iff.1 hrest
      exact ⟨⟨fuel, args, hargs⟩, fuel, calls', hcalls⟩
    · rintro ⟨⟨m, args, hargs⟩, k, calls, hcalls⟩
      refine ⟨max m k, { toolName := hit.name, args } :: calls, ?_⟩
      have hargs' := parseArgs_extends (Nat.le_max_left m k) _ _ hargs
      have hcalls' := callsOf_extends (Nat.le_max_right m k) _ _ hcalls
      rw [callsOf, hargs']
      show (callsOf floatOf (max m k) found).andThen _ = _
      rw [hcalls']
      rfl

def Match.weight (m : Match) : Nat := m.name.length + m.args.length + 14

theorem resultSize_le {found : List Hit} {calls : List Call}
    (h : callsOf floatOf fuel found = Run.ok calls) :
    resultSize calls ≤ 2 * (found.map fun hit => hit.found.weight).sum := by
  induction found generalizing calls with
  | nil =>
    cases h
    exact Nat.zero_le _
  | cons hit found ih =>
    obtain ⟨args, hargs, hrest⟩ := andThen_eq_ok_iff.1 h
    obtain ⟨calls', hcalls, hpair⟩ := andThen_eq_ok_iff.1 hrest
    cases hpair
    have hsize := sizeFields_parseArgs hargs
    have hstrip := length_pyStrip_le isPySpace hit.found.name
    have hle := ih hcalls
    simp only [resultSize] at hle ⊢
    simp only [List.map_cons, List.sum_cons, Hit.name, String.toList_ofList, Match.weight] at hle ⊢
    omega

theorem matchArgs_length {whole name s : List Char} {m : Match} (hs : s.length ≤ whole.length)
    (h : matchArgs whole name s = some m) : m.name = name ∧ m.length ≤ whole.length
      ∧ m.args.length + 14 + (whole.length - s.length) ≤ m.length := by
  unfold matchArgs at h
  split at h
  · obtain ⟨⟨args, rest⟩, hcut, rfl⟩ := Option.map_eq_some_iff.1 h
    have hlength := congrArg List.length (cut_eq_some hcut)
    have hcloser : closer.length = 13 := by decide
    simp only [List.length_append, List.length_cons] at hlength hs ⊢
    exact ⟨by trivial, Nat.sub_le _ _, by omega⟩
  · cases h

/-- A pattern takes a part of the text, in which its groups stand. -/
def Takes (pattern : List Char → Option Match) : Prop :=
  ∀ s m, pattern s = some m → m.weight ≤ m.length ∧ m.length ≤ s.length

theorem takes_matchCall : Takes matchCall := by
  intro s m h
  unfold matchCall at h
  dsimp only at h
  split_ifs at h
  have hsplit := congrArg List.length
    (List.takeWhile_append_dropWhile (p := (· ≠ '{')) (l := s.drop opener.length))
  rw [List.length_append, List.length_drop] at hsplit
  obtain ⟨hname, hle, hargs⟩ := matchArgs_length (by omega) h
  rw [Match.weight, hname]
  omega

theorem takes_matchLenientCall (isWord : Char → Bool) : Takes (matchLenientCall isWord) := by
  intro s m h
  unfold matchLenientCall at h
  dsimp only at h
  have hbegin : (if "call:".toList.isPrefixOf s = true then s.drop "call:".toList.length
      else s).length ≤ s.length := by
    split_ifs
    · exact (List.drop_sublist _ _).length_le
    · exact le_rfl
  split at h
  · cases h
  · next c cs hcs =>
      rw [hcs, List.length_cons] at hbegin
      split_ifs at h
      have hsplit := congrArg List.length (List.takeWhile_append_dropWhile
        (p := fun c => isWord c || c = '.' || c = '-') (l := cs))
      have hspace := (List.dropWhile_sublist isPySpace
        (l := cs.dropWhile (fun c => isWord c || c = '.' || c = '-'))).length_le
      rw [List.length_append] at hsplit
      obtain ⟨hname, hle, hargs⟩ := matchArgs_length (by omega) h
      rw [Match.weight, hname, List.length_cons]
      omega

theorem sum_finditer_le {pattern : List Char → Option Match} (hpattern : Takes pattern)
    (position skip : Nat) (s : List Char) (hskip : skip ≤ s.length) :
    ((finditer pattern position skip s).map fun hit => hit.found.weight).sum + skip ≤ s.length := by
  induction s generalizing position skip with
  | nil => simpa [finditer] using hskip
  | cons c cs ih =>
    rw [List.length_cons] at hskip ⊢
    cases skip with
    | zero =>
      rw [finditer]
      split
      · next m hm =>
          obtain ⟨hweight, hlength⟩ := hpattern _ m hm
          rw [List.length_cons] at hlength
          have hrest := ih (position + 1) (m.length - 1) (by omega)
          have hpos : 14 ≤ m.weight := Nat.le_add_left _ _
          simp only [List.map_cons, List.sum_cons]
          omega
      · have hrest := ih (position + 1) 0 (Nat.zero_le _)
        omega
    | succ skip =>
      have hrest := ih (position + 1) skip (by omega)
      rw [finditer]
      omega

theorem sum_called_le (isWord : Char → Bool) (text : List Char) (known : List String) :
    ((called isWord text known).map fun hit => hit.found.weight).sum ≤ 2 * text.length := by
  have hstrict := sum_finditer_le takes_matchCall 0 0 text (Nat.zero_le _)
  have hlenient := sum_finditer_le (takes_matchLenientCall isWord) 0 0 text (Nat.zero_le _)
  have hcalled := (List.filter_sublist (l := hits isWord text known)
    (p := fun hit => known = [] || known.contains hit.name)).map (fun hit => hit.found.weight)
  refine hcalled.sum_le_sum (fun _ _ => Nat.zero_le _) |>.trans ?_
  rw [hits, ((List.perm_insertionSort _ _).map _).sum_eq, List.map_append, List.sum_append]
  split_ifs
  · simp only [List.map_nil, List.sum_nil]
    omega
  · have hfilter := (List.filter_sublist (l := finditer (matchLenientCall isWord) 0 0 text)
      (p := fun hit => !((finditer matchCall 0 0 text).map Hit.stop).contains hit.stop
        && known.contains hit.name)).map (fun hit => hit.found.weight)
    have hle := hfilter.sum_le_sum (fun _ _ => Nat.zero_le _)
    omega

def Position.Progresses (floatOf : List Char → FloatLiteral) (p : Position) : Prop :=
  ∀ f ∈ p.frames.head?, ∀ t ∈ f.item p.rest, ∀ fuel v rest,
    parseValue floatOf fuel t = Run.ok (v, rest) → (skipComma rest).length < p.rest.length

/-- The parser ends on a text with a result that is not larger than four times the text, and every
    iteration of a loop takes a character. -/
structure Ends (isWord : Char → Bool) (floatOf : List Char → FloatLiteral) (text : List Char)
    (known : List String) : Prop where
  returns : ∃ fuel calls, parse isWord floatOf fuel text known = Run.ok calls
    ∧ resultSize calls ≤ 4 * text.length
  progress : ∀ hit ∈ called isWord text known, ∀ p,
    Reaches (Position.begin hit.found.args) p → p.Progresses floatOf

theorem progresses_of_not_blocked {p : Position} (h : ¬ p.Blocked) : p.Progresses floatOf := by
  intro f hf t ht fuel v rest hv
  refine (parseValue_consumes hv).length_lt ht (fun harray hhead => h ⟨?_, hhead⟩)
  rw [← harray]
  exact hf

/-- The parser ends on a text exactly when, over the arguments of each call, no array is to read an
    element in front of a closing brace and no integer has too many digits. -/
theorem parse_ends_iff (isWord : Char → Bool) (floatOf : List Char → FloatLiteral)
    (text : List Char) (known : List String) :
    Ends isWord floatOf text known ↔ ∀ hit ∈ called isWord text known, ∀ p,
      Reaches (Position.begin hit.found.args) p → ¬ p.Blocked ∧ ¬ p.Oversized := by
  have hreturns : (∃ fuel calls, parse isWord floatOf fuel text known = Run.ok calls)
      ↔ ∀ hit ∈ called isWord text known, ∀ p,
        Reaches (Position.begin hit.found.args) p → ¬ p.Fails := by
    refine (callsOf_returns_iff _).trans ?_
    exact forall₂_congr (fun hit _ => parseArgs_returns_iff hit.found.args)
  constructor
  · rintro ⟨⟨fuel, calls, hcalls, -⟩, -⟩ hit hhit p hp
    exact not_or.1 (hreturns.1 ⟨fuel, calls, hcalls⟩ hit hhit p hp)
  · intro hgood
    obtain ⟨fuel, calls, hcalls⟩ := hreturns.2 (fun hit hhit p hp =>
      not_or.2 (hgood hit hhit p hp))
    have hsize := resultSize_le hcalls
    have hsum := sum_called_le isWord text known
    exact ⟨⟨fuel, calls, hcalls, by omega⟩,
      fun hit hhit p hp => progresses_of_not_blocked (hgood hit hhit p hp).1⟩

/-! ### An array that is not closed -/

private def openArray : List Char := "<|tool_call>call:f\x7ba:[\x7d<tool_call|>".toList

private def isAsciiWord (c : Char) : Bool := c.isAlphanum || c = '_'

private def zeroPointZero (_ : List Char) : FloatLiteral where
  letters := ['0', '.', '0']
  ne_nil := List.cons_ne_nil _ _
  bare := rfl
  float := rfl

theorem parseValue_blockedArray (n : Nat) (r : Except String (Value × List Char)) :
    parseValue floatOf n "[\x7d".toList ≠ some r := by
  intro hr
  cases n with
  | zero => cases hr
  | succ n =>
    have hskip : skipWs "[\x7d".toList = '[' :: ['}'] := by decide
    have hbrace : skipWs ['}'] = '}' :: [] := by decide
    rw [parseValue_array hskip, Run.andThen_eq_some_iff] at hr
    rcases hr with ⟨p, hp, -⟩ | ⟨e, he, -⟩
    · exact loop_blocked hbrace _ hp
    · exact loop_blocked hbrace _ he

theorem parseArgs_openArray (n : Nat) (r : Except String (List (String × Value))) :
    parseArgs floatOf n "a:[".toList ≠ some r := by
  intro hr
  have hbody : pyStrip isPySpace "a:[".toList ≠ [] := by decide
  have hskip : skipWs (braced "a:[".toList) = '{' :: "a:[\x7d".toList := by decide
  have hitem : Frame.object.item "a:[\x7d".toList = some "[\x7d".toList := by decide
  have hvalue : ∀ q, parseValue floatOf n (braced "a:[".toList) ≠ some q := by
    intro q hq
    cases n with
    | zero => cases hq
    | succ n =>
      have hloop : ∀ l, loop .object addItem (parseValue floatOf n) n KeyedList.empty
          "a:[\x7d".toList ≠ some l := by
        intro l hl
        cases n with
        | zero => cases hl
        | succ n =>
          rw [loop, hitem, Option.elim_some, Run.andThen_eq_some_iff] at hl
          rcases hl with ⟨p, hp, -⟩ | ⟨e, he, -⟩
          · exact parseValue_blockedArray _ _ hp
          · exact parseValue_blockedArray _ _ he
      rw [parseValue_object hskip, Run.andThen_eq_some_iff] at hq
      rcases hq with ⟨p, hp, -⟩ | ⟨e, he, -⟩
      · exact hloop _ hp
      · exact hloop _ he
  rw [parseArgs, if_neg hbody, Run.andThen_eq_some_iff] at hr
  rcases hr with ⟨p, hp, -⟩ | ⟨e, he, -⟩
  · exact hvalue _ hp
  · exact hvalue _ he

/-- The parser does not return from the call, however long it runs. -/
theorem parse_openArray : ¬ Ends isAsciiWord zeroPointZero openArray ["f"]
    ∧ ∀ fuel, parse isAsciiWord zeroPointZero fuel openArray ["f"] = none := by
  have hcalled : called isAsciiWord openArray ["f"]
      = [{ start := 0, found := { name := ['f'], args := "a:[".toList, length := 35 } }] := by
    decide +kernel
  have hnever : ∀ fuel, parse isAsciiWord zeroPointZero fuel openArray ["f"] = none := by
    intro fuel
    refine Option.eq_none_iff_forall_ne_some.2 (fun r hr => ?_)
    rw [parse, hcalled, callsOf, Run.andThen_eq_some_iff] at hr
    rcases hr with ⟨args, hargs, -⟩ | ⟨e, he, -⟩
    · exact parseArgs_openArray _ _ hargs
    · exact parseArgs_openArray _ _ he
  refine ⟨fun hends => ?_, hnever⟩
  obtain ⟨fuel, calls, hcalls, -⟩ := hends.returns
  rw [hnever fuel] at hcalls
  cases hcalls

end Himmy.Gemma
