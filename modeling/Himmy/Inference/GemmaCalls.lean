import Himmy.Inference.GemmaRoundTrip
import Himmy.Inference.GemmaTermination

/-! # Rendered calls are found again

The text of a call is closed where its arguments end and nowhere before: a brace in it is followed by
no `<`, but in a text that does not hold the closing mark. So the strict pattern takes the calls one
after another, and whatever the tolerant pattern takes ends with one of them. -/

namespace Himmy.Gemma

variable {floatOf : List Char → FloatLiteral}

/-! ## Scanning for the end of a call -/

/-- Put a text in front of what stands before a cut. -/
def shift (l : List Char) (p : List Char × List Char) : List Char × List Char := (l ++ p.1, p.2)

/-- The end of a call is not found in the text, unless an angle bracket follows it. -/
def Passes (l : List Char) : Prop := ∀ rest, rest.head? ≠ some '<' →
  cut closer (l ++ rest) = (cut closer rest).map (shift l)

theorem closer_eq : closer = '}' :: '<' :: 't' :: "ool_call|>".toList := by decide

theorem map_shift_nil (o : Option (List Char × List Char)) : o.map (shift []) = o := by
  cases o <;> rfl

theorem map_shift_cons (c : Char) (l : List Char) (o : Option (List Char × List Char)) :
    (o.map (shift l)).map (fun p => (c :: p.1, p.2)) = o.map (shift (c :: l)) := by
  cases o <;> rfl

theorem map_shift_append (l l' : List Char) (o : Option (List Char × List Char)) :
    (o.map (shift l')).map (shift l) = o.map (shift (l ++ l')) := by
  cases o <;> simp [shift]

variable {l : List Char}

theorem cut_closer_cons {c : Char} (h : c ≠ '}' ∨ l.head? ≠ some '<') :
    cut closer (c :: l) = (cut closer l).map fun p => (c :: p.1, p.2) := by
  have hnot : ¬ closer.isPrefixOf (c :: l) = true := by
    rw [List.isPrefixOf_iff_prefix, closer_eq, List.cons_prefix_cons]
    rintro ⟨hc, tail, htail⟩
    rcases h with h | h
    · exact h hc.symm
    · exact h (by rw [← htail]; rfl)
  rw [cut, if_neg hnot]

theorem cut_closer_append (h : '}' ∉ l) (rest : List Char) :
    cut closer (l ++ rest) = (cut closer rest).map (shift l) := by
  induction l with
  | nil =>
    rw [List.nil_append]
    exact (map_shift_nil _).symm
  | cons c l ih =>
    rw [List.mem_cons, not_or] at h
    rw [List.cons_append, cut_closer_cons (Or.inl (Ne.symm h.1)), ih h.2, map_shift_cons]

theorem cut_closer_content {content : List Char} (h : ¬ closer <:+: content) (rest : List Char) :
    cut closer (content ++ (strDelimiter ++ rest))
      = (cut closer (strDelimiter ++ rest)).map (shift content) := by
  induction content with
  | nil =>
    rw [List.nil_append]
    exact (map_shift_nil _).symm
  | cons c l ih =>
    have hl : ¬ closer <:+: l := fun hwithin =>
      h (hwithin.trans (List.suffix_cons c l).isInfix)
    have hnot : ¬ closer.isPrefixOf (c :: (l ++ (strDelimiter ++ rest))) = true := by
      rw [List.isPrefixOf_iff_prefix]
      intro hbegins
      by_cases hlength : closer.length ≤ (c :: l).length
      · have hbegin : closer <+: c :: l := by
          refine List.prefix_of_prefix_length_le hbegins ?_ hlength
          exact ⟨strDelimiter ++ rest, rfl⟩
        exact h hbegin.isInfix
      · -- the delimiter begins inside the mark, whose only angle bracket is its second character
        have hdelimiter : strDelimiter = '<' :: '|' :: ['"', '|', '>'] := by decide
        obtain ⟨tail, htail⟩ := hbegins
        have hkept : (closer ++ tail)[(c :: l).length]? = closer[(c :: l).length]? :=
          List.getElem?_append_left (by omega)
        have hfirst : closer[(c :: l).length]? = some '<' := by
          rw [← hkept, htail, ← List.cons_append,
            List.getElem?_append_right le_rfl, Nat.sub_self, hdelimiter]
          rfl
        have honly : (c :: l).length = 1 := by
          have hlt : (c :: l).length < 13 := not_le.1 hlength
          generalize (c :: l).length = k at hfirst hlt
          have hall : ∀ k < 13, closer[k]? = some '<' → k = 1 := by decide
          exact hall k hlt hfirst
        have hnil : l = [] := by
          rw [List.length_cons] at honly
          exact List.eq_nil_of_length_eq_zero (by omega)
        subst hnil
        rw [closer_eq, hdelimiter] at htail
        simp at htail
    rw [List.cons_append, cut, if_neg hnot, ih hl, map_shift_cons]

theorem passes_of_notMem (h : '}' ∉ l) : Passes l := fun rest _ =>
  cut_closer_append h rest

theorem notMem_of_isWord {w : List Char} (h : IsWord w) : '}' ∉ w := fun hmem =>
  absurd (h '}' hmem) (by decide)

theorem cut_closer_intercalate {parts : List (List Char)} (h : ∀ part ∈ parts, Passes part) {c : Char}
    (hc : c ≠ '<') (rest : List Char) : cut closer ([','].intercalate parts ++ c :: rest)
      = (cut closer (c :: rest)).map (shift ([','].intercalate parts)) := by
  induction parts with
  | nil =>
    show cut closer (c :: rest) = _
    exact (map_shift_nil _).symm
  | cons part parts ih =>
    have hpart := h part List.mem_cons_self
    cases parts with
    | nil =>
      rw [List.intercalate_singleton]
      exact hpart _ (by simpa using hc)
    | cons part' parts =>
      have hrest := ih (fun p hp => h p (List.mem_cons_of_mem _ hp))
      have hcomma : (',' : Char) ≠ '}' := by decide
      have hform : [','].intercalate (part :: part' :: parts) ++ c :: rest
          = part ++ (',' :: ([','].intercalate (part' :: parts) ++ c :: rest)) := by
        rw [List.intercalate_cons_cons]
        simp
      have hshift : [','].intercalate (part :: part' :: parts)
          = part ++ ',' :: [','].intercalate (part' :: parts) := by
        rw [List.intercalate_cons_cons]
        simp
      rw [hform, hpart _ (by simp), cut_closer_cons (Or.inl hcomma), hrest, map_shift_cons,
        map_shift_append, hshift]

theorem passes_itemText {kv : String × Value} (hkey : IsWord kv.1.toList)
    (h : Passes (fmtArg false kv.2)) : Passes (itemText kv) := by
  intro rest hrest
  have hcolon : (':' : Char) ≠ '}' := by decide
  rw [itemText, List.append_assoc, cut_closer_append (notMem_of_isWord hkey), List.cons_append,
    cut_closer_cons (Or.inl hcolon), h rest hrest, map_shift_cons, map_shift_append]

theorem cut_bodyText {kvs : List (String × Value)} (hkeys : ∀ kv ∈ kvs, IsWord kv.1.toList)
    (h : ∀ kv ∈ kvs, Passes (fmtArg false kv.2)) {c : Char} (hc : c ≠ '<') (rest : List Char) :
    cut closer (bodyText kvs ++ c :: rest) = (cut closer (c :: rest)).map (shift (bodyText kvs)) := by
  refine cut_closer_intercalate (fun part hpart => ?_) hc rest
  obtain ⟨kv, hkv, rfl⟩ := List.mem_map.1 hpart
  exact passes_itemText (hkeys kv (mem_sortItems.1 hkv)) (h kv (mem_sortItems.1 hkv))

theorem passes_of_word {v : Value} (h : Everywhere (IsJson floatOf) v) (hstr : ∀ s, v ≠ .str s)
    (hlist : ∀ xs, v ≠ .list xs) (hdict : ∀ kvs, v ≠ .dict kvs) : Passes (fmtArg false v) := by
  rcases fmtArg_word (of_everywhere h) with ⟨s, rfl⟩ | ⟨xs, rfl⟩ | ⟨kvs, rfl⟩ | ⟨-, hword⟩
  · exact absurd rfl (hstr s)
  · exact absurd rfl (hlist xs)
  · exact absurd rfl (hdict kvs)
  · exact passes_of_notMem (notMem_of_isWord hword)

mutual

theorem passes_fmtArg : ∀ v, Everywhere (IsJson floatOf) v → Passes (fmtArg false v)
  | .list xs, h => by
    intro rest hrest
    have hxs := passes_fmtElements xs (everywhere_list.1 h).2
    have hparts : ∀ part ∈ xs.map (fmtArg false), Passes part := by
      intro part hpart
      obtain ⟨x, hx, rfl⟩ := List.mem_map.1 hpart
      exact hxs x hx
    have hopen : ('[' : Char) ≠ '}' := by decide
    have hclose : (']' : Char) ≠ '}' := by decide
    rw [fmtArg_list, List.cons_append, List.append_assoc, List.singleton_append,
      cut_closer_cons (Or.inl hopen), cut_closer_intercalate hparts (by decide),
      cut_closer_cons (Or.inl hclose)]
    cases cut closer rest <;> simp [shift]
  | .dict kvs, h => by
    intro rest hrest
    have hkvs := passes_fmtFields kvs (everywhere_dict.1 h).2
    have hopen : ('{' : Char) ≠ '}' := by decide
    rw [fmtArg_dict, List.cons_append, List.append_assoc, List.singleton_append,
      cut_closer_cons (Or.inl hopen), cut_bodyText (everywhere_dict.1 h).1.2 hkvs (by decide),
      cut_closer_cons (Or.inr hrest)]
    cases cut closer rest <;> simp [shift]
  | .str s, h => by
    intro rest _
    have hdelimiter : '}' ∉ strDelimiter := by decide
    rw [fmtArg, List.append_assoc, List.append_assoc, cut_closer_append hdelimiter,
      cut_closer_content (of_everywhere h).2, cut_closer_append hdelimiter, map_shift_append,
      map_shift_append, List.append_assoc]
  | .null, h => passes_of_word h (by simp) (by simp) (by simp)
  | .bool _, h => passes_of_word h (by simp) (by simp) (by simp)
  | .int _, h => passes_of_word h (by simp) (by simp) (by simp)
  | .float _, h => passes_of_word h (by simp) (by simp) (by simp)
  | .object _, h => h.elim

theorem passes_fmtElements : ∀ xs : List Value, (∀ x ∈ xs, Everywhere (IsJson floatOf) x) →
    ∀ x ∈ xs, Passes (fmtArg false x)
  | [], _, _, hx => by cases hx
  | x :: xs, h, y, hy => by
    rcases List.mem_cons.1 hy with heq | hy
    · rw [heq]
      exact passes_fmtArg x (h x List.mem_cons_self)
    · exact passes_fmtElements xs (fun z hz => h z (List.mem_cons_of_mem _ hz)) y hy

theorem passes_fmtFields : ∀ kvs : List (String × Value),
    (∀ kv ∈ kvs, Everywhere (IsJson floatOf) kv.2) → ∀ kv ∈ kvs, Passes (fmtArg false kv.2)
  | [], _, _, hkv => by cases hkv
  | (k, x) :: kvs, h, y, hy => by
    rcases List.mem_cons.1 hy with heq | hy
    · rw [heq]
      exact passes_fmtArg x (h (k, x) List.mem_cons_self)
    · exact passes_fmtFields kvs (fun z hz => h z (List.mem_cons_of_mem _ hz)) y hy

end

/-! ## The strict matches -/

/-- A call that can be rendered: a name and JSON arguments. -/
structure Renderable (floatOf : List Char → FloatLiteral) (call : String × List (String × Value)) :
    Prop where
  name_ne : call.1.toList ≠ []
  name_word : IsWord call.1.toList
  json : Everywhere (IsJson floatOf) (.dict call.2)

def callMatch (call : String × List (String × Value)) : Match :=
  { name := call.1.toList, args := bodyText call.2, length := (renderCall call.1 call.2).length }

variable {call : String × List (String × Value)}

theorem Renderable.cut_body (h : Renderable floatOf call) (rest : List Char) :
    cut closer (bodyText call.2 ++ (closer ++ rest)) = some (bodyText call.2, rest) := by
  have hkvs := passes_fmtFields call.2 (everywhere_dict.1 h.json).2
  have hempty : ¬ closer <:+: [] := by decide
  have hclose : cut closer (closer ++ rest) = some ([], rest) :=
    cut_append unbordered_closer hempty rest
  have hform : closer ++ rest = '}' :: ("<tool_call|>".toList ++ rest) := by rw [closer_eq]; rfl
  rw [hform] at hclose ⊢
  rw [cut_bodyText (everywhere_dict.1 h.json).1.2 hkvs (by decide), hclose]
  simp [shift]

theorem Renderable.cut_call (h : Renderable floatOf call)
    (rest : List Char) : ∃ before, cut closer (renderCall call.1 call.2 ++ rest) = some (before, rest)
      ∧ before.length + closer.length = (renderCall call.1 call.2).length := by
  have hopener : '}' ∉ opener := by decide
  have hopen : ('{' : Char) ≠ '}' := by decide
  have hform : renderCall call.1 call.2 ++ rest
      = opener ++ (call.1.toList ++ ('{' :: (bodyText call.2 ++ (closer ++ rest)))) := by
    rw [renderCall_eq]
    simp
  refine ⟨opener ++ (call.1.toList ++ ('{' :: bodyText call.2)), ?_, ?_⟩
  · rw [hform, cut_closer_append hopener, cut_closer_append (notMem_of_isWord h.name_word),
      cut_closer_cons (Or.inl hopen), h.cut_body]
    rfl
  · rw [renderCall_eq]
    simp only [List.length_append, List.length_cons]
    omega

theorem takeWhile_name {name : List Char} (h : IsWord name) (rest : List Char) :
    (name ++ '{' :: rest).takeWhile (· ≠ '{') = name
      ∧ (name ++ '{' :: rest).dropWhile (· ≠ '{') = '{' :: rest := by
  induction name with
  | nil => simp
  | cons c name ih =>
    have hc := (ne_of_isNameChar (h c List.mem_cons_self)).1
    obtain ⟨htake, hdrop⟩ := ih (fun d hd => h d (List.mem_cons_of_mem _ hd))
    have hkeep : decide (c ≠ '{') = true := decide_eq_true hc
    simp only [List.cons_append, List.takeWhile_cons, List.dropWhile_cons, hkeep, if_true, htake,
      hdrop, and_self]

theorem Renderable.matchCall (h : Renderable floatOf call)
    (rest : List Char) : matchCall (renderCall call.1 call.2 ++ rest) = some (callMatch call) := by
  have hform : renderCall call.1 call.2 ++ rest
      = opener ++ (call.1.toList ++ '{' :: (bodyText call.2 ++ (closer ++ rest))) := by
    rw [renderCall_eq]
    simp
  have hopener : opener.isPrefixOf (renderCall call.1 call.2 ++ rest) = true := by
    rw [hform]
    exact List.isPrefixOf_iff_prefix.2 (List.prefix_append _ _)
  have hdrop : (renderCall call.1 call.2 ++ rest).drop opener.length
      = call.1.toList ++ '{' :: (bodyText call.2 ++ (closer ++ rest)) := by
    rw [hform, List.drop_left]
  obtain ⟨htake, hdropWhile⟩ := takeWhile_name h.name_word (bodyText call.2 ++ (closer ++ rest))
  unfold Gemma.matchCall
  rw [if_pos hopener]
  simp only [hdrop, htake, hdropWhile, if_neg h.name_ne]
  rw [matchArgs, h.cut_body]
  simp [callMatch]

def callHits : Nat → List (String × List (String × Value)) → List Hit
  | _, [] => []
  | position, call :: calls =>
    { start := position, found := callMatch call }
      :: callHits (position + (callMatch call).length) calls

def callsText (calls : List (String × List (String × Value))) : List Char :=
  calls.flatMap fun call => renderCall call.1 call.2

theorem finditer_skip (pattern : List Char → Option Match) (position skip : Nat) (s : List Char) :
    finditer pattern position skip s = finditer pattern (position + skip) 0 (s.drop skip) := by
  induction skip generalizing position s with
  | zero => rfl
  | succ skip ih =>
    cases s with
    | nil => simp [finditer]
    | cons c s =>
      rw [finditer, ih, List.drop_succ_cons, Nat.add_assoc, Nat.add_comm 1]

variable {calls : List (String × List (String × Value))}

theorem finditer_matchCall (h : ∀ call ∈ calls, Renderable floatOf call) (position : Nat) :
    finditer matchCall position 0 (callsText calls) = callHits position calls := by
  induction calls generalizing position with
  | nil => rfl
  | cons call calls ih =>
    have hcall := h call List.mem_cons_self
    have hmatch := hcall.matchCall (callsText calls)
    obtain ⟨c, l, hl⟩ : ∃ c l, renderCall call.1 call.2 = c :: l := by
      rw [renderCall_eq]
      exact ⟨'<', _, rfl⟩
    have hlength : (callMatch call).length = l.length + 1 := by simp [callMatch, hl]
    show finditer matchCall position 0 (renderCall call.1 call.2 ++ callsText calls) = _
    rw [hl, List.cons_append] at hmatch ⊢
    rw [finditer, hmatch, callHits]
    show _ :: finditer matchCall (position + 1) ((callMatch call).length - 1) _ = _
    rw [finditer_skip, hlength, Nat.add_sub_cancel, List.drop_left,
      ih (fun call hcall => h call (List.mem_cons_of_mem _ hcall)), Nat.add_assoc, Nat.add_comm 1]

/-! ## The tolerant matches -/

theorem length_le_of_cut {pattern s before after : List Char} (h : cut pattern s = some (before, after))
    {x y : List Char} (hs : s = x ++ (pattern ++ y)) : before.length ≤ x.length := by
  induction s generalizing before x with
  | nil =>
    rw [cut] at h
    split_ifs at h
    cases h
    exact Nat.zero_le _
  | cons c s ih =>
    rw [cut] at h
    split_ifs at h with hbegins
    · cases h
      exact Nat.zero_le _
    · obtain ⟨p, hcut, hpair⟩ := Option.map_eq_some_iff.1 h
      cases hpair
      cases x with
      | nil =>
        rw [List.nil_append] at hs
        rw [hs] at hbegins
        exact absurd (List.isPrefixOf_iff_prefix.2 (List.prefix_append _ _)) hbegins
      | cons d x =>
        obtain ⟨-, hs⟩ := List.cons.inj hs
        simpa using ih hcut hs

theorem exists_append_of_cut {pattern before after x y : List Char} (hpattern : Unbordered pattern)
    (h : before ++ (pattern ++ after) = x ++ (pattern ++ y)) (hlt : before.length < x.length) :
    ∃ z, x = before ++ (pattern ++ z) ∧ after = z ++ (pattern ++ y) := by
  obtain ⟨w, rfl⟩ : ∃ w, x = before ++ w := by
    have hbegins : before <+: x := List.prefix_of_prefix_length_le ⟨_, h⟩ (List.prefix_append _ _) hlt.le
    obtain ⟨w, hw⟩ := hbegins
    exact ⟨w, hw.symm⟩
  have hne : w ≠ [] := by
    rintro rfl
    simp at hlt
  rw [List.append_assoc, List.append_cancel_left_eq] at h
  obtain ⟨z, rfl⟩ := hpattern.apart hne ⟨after, h⟩
  rw [List.append_assoc, List.append_cancel_left_eq] at h
  exact ⟨z, rfl, h⟩

theorem mem_stops (h : ∀ call ∈ calls, Renderable floatOf call) (position : Nat) {x y : List Char}
    (hs : callsText calls = x ++ (closer ++ y)) :
    position + x.length + closer.length ∈ (callHits position calls).map Hit.stop := by
  induction calls generalizing position x with
  | nil =>
    have hlength := congrArg List.length hs
    have hcloser : closer.length = 13 := by decide
    simp only [callsText, List.flatMap_nil, List.length_nil, List.length_append] at hlength
    omega
  | cons call calls ih =>
    obtain ⟨before, hcut, hlength⟩ := (h call List.mem_cons_self).cut_call (callsText calls)
    have hs : renderCall call.1 call.2 ++ callsText calls = x ++ (closer ++ y) := hs
    have hle := length_le_of_cut hcut hs
    have hsplit := (cut_eq_some hcut).symm.trans hs
    rw [callHits, List.map_cons]
    rcases hle.eq_or_lt with heq | hlt
    · refine List.mem_cons.2 (Or.inl ?_)
      simp only [Hit.stop, callMatch]
      omega
    · obtain ⟨z, rfl, hafter⟩ := exists_append_of_cut unbordered_closer hsplit hlt
      refine List.mem_cons.2 (Or.inr ?_)
      have hmem := ih (fun call hcall => h call (List.mem_cons_of_mem _ hcall))
        (position + (callMatch call).length) hafter
      have hindex : position + (before ++ (closer ++ z)).length + closer.length
          = position + (callMatch call).length + z.length + closer.length := by
        simp only [List.length_append, callMatch]
        omega
      rw [hindex]
      exact hmem

def EndsClosed (pattern : List Char → Option Match) : Prop := ∀ s m, pattern s = some m →
  ∃ x y, s = x ++ (closer ++ y) ∧ m.length = x.length + closer.length

theorem matchArgs_ends {before name s : List Char} {m : Match}
    (h : matchArgs (before ++ s) name s = some m) :
    ∃ x y, before ++ s = x ++ (closer ++ y) ∧ m.length = x.length + closer.length := by
  unfold matchArgs at h
  split at h
  · next s =>
      obtain ⟨⟨args, rest⟩, hcut, rfl⟩ := Option.map_eq_some_iff.1 h
      refine ⟨before ++ '{' :: args, rest, ?_, ?_⟩
      · rw [cut_eq_some hcut]
        simp
      · rw [cut_eq_some hcut]
        simp only [List.length_append, List.length_cons]
        omega
  · cases h

variable (isWord : Char → Bool)

theorem endsClosed_matchLenientCall : EndsClosed (matchLenientCall isWord) := by
  intro s m h
  unfold matchLenientCall at h
  dsimp only at h
  obtain ⟨opening, hopening⟩ : ∃ opening, s = opening ++ (if "call:".toList.isPrefixOf s = true then
      s.drop "call:".toList.length else s) := by
    split_ifs
    · exact ⟨s.take "call:".toList.length, (List.take_append_drop _ _).symm⟩
    · exact ⟨[], rfl⟩
  split at h
  · cases h
  · next c cs hcs =>
      rw [hcs] at hopening
      split_ifs at h
      have hname := List.takeWhile_append_dropWhile (p := fun c => isWord c || c = '.' || c = '-')
        (l := cs)
      have hspace := List.takeWhile_append_dropWhile (p := isPySpace)
        (l := cs.dropWhile (fun c => isWord c || c = '.' || c = '-'))
      have hs : s = (opening ++ (c :: cs.takeWhile (fun c => isWord c || c = '.' || c = '-')
          ++ (cs.dropWhile (fun c => isWord c || c = '.' || c = '-')).takeWhile isPySpace))
          ++ (cs.dropWhile (fun c => isWord c || c = '.' || c = '-')).dropWhile isPySpace := by
        rw [List.append_assoc, List.append_assoc, hspace, List.cons_append, hname]
        exact hopening
      have hends := matchArgs_ends (m := m) (by rw [← hs]; exact h)
      rw [← hs] at hends
      exact hends

variable {hit : Hit}

theorem finditer_ends {pattern : List Char → Option Match} (hpattern : EndsClosed pattern)
    (position skip : Nat) (s : List Char) (h : hit ∈ finditer pattern position skip s) :
    ∃ x y, s = x ++ (closer ++ y) ∧ hit.stop = position + x.length + closer.length := by
  induction s generalizing position skip with
  | nil => cases h
  | cons c s ih =>
    have hlater : ∀ p k, hit ∈ finditer pattern p k s → p = position + 1 →
        ∃ x y, c :: s = x ++ (closer ++ y) ∧ hit.stop = position + x.length + closer.length := by
      intro p k hmem hp
      obtain ⟨x, y, hs, hstop⟩ := ih p k hmem
      refine ⟨c :: x, y, by rw [hs]; rfl, ?_⟩
      rw [hstop, hp, List.length_cons]
      omega
    cases skip with
    | zero =>
      rw [finditer] at h
      split at h
      · next m hm =>
          rcases List.mem_cons.1 h with rfl | h
          · obtain ⟨x, y, hs, hlength⟩ := hpattern _ m hm
            exact ⟨x, y, hs, by rw [Hit.stop, hlength, Nat.add_assoc]⟩
          · exact hlater _ _ h rfl
      · exact hlater _ _ h rfl
    | succ skip =>
      rw [finditer] at h
      exact hlater _ _ h rfl

/-! ## The calls that are parsed -/

theorem starts_callHits (position : Nat) (calls : List (String × List (String × Value))) :
    (callHits position calls).Pairwise (fun a b => a.start ≤ b.start)
      ∧ ∀ hit ∈ callHits position calls, position ≤ hit.start := by
  induction calls generalizing position with
  | nil => simp [callHits]
  | cons call calls ih =>
    obtain ⟨hpairwise, hle⟩ := ih (position + (callMatch call).length)
    rw [callHits]
    refine ⟨List.pairwise_cons.2 ⟨fun hit hhit => ?_, hpairwise⟩, ?_⟩
    · exact (Nat.le_add_right _ _).trans (hle hit hhit)
    · intro hit hhit
      rcases List.mem_cons.1 hhit with rfl | hhit
      · exact le_rfl
      · exact (Nat.le_add_right _ _).trans (hle hit hhit)

theorem hits_callsText (known : List String) (h : ∀ call ∈ calls, Renderable floatOf call) :
    hits isWord (callsText calls) known = callHits 0 calls := by
  have hlenient : ((finditer (matchLenientCall isWord) 0 0 (callsText calls)).filter fun hit =>
      !((callHits 0 calls).map Hit.stop).contains hit.stop && known.contains hit.name) = [] := by
    rw [List.filter_eq_nil_iff]
    intro hit hhit
    obtain ⟨x, y, hs, hstop⟩ := finditer_ends (endsClosed_matchLenientCall isWord) 0 0 _ hhit
    have hmem := mem_stops h 0 hs
    rw [← hstop] at hmem
    rw [Bool.and_eq_true, Bool.not_eq_true', List.contains_eq_mem, decide_eq_false_iff_not]
    exact fun hnot => hnot.1 hmem
  rw [hits, finditer_matchCall h, hlenient, ite_self, List.append_nil]
  exact (starts_callHits 0 calls).1.insertionSort_eq

theorem mem_callHits {position : Nat}
    (h : hit ∈ callHits position calls) : ∃ call ∈ calls, hit.found = callMatch call := by
  induction calls generalizing position with
  | nil => cases h
  | cons call calls ih =>
    rcases List.mem_cons.1 h with rfl | h
    · exact ⟨call, List.mem_cons_self, rfl⟩
    · obtain ⟨call', hcall', hfound⟩ := ih h
      exact ⟨call', List.mem_cons_of_mem _ hcall', hfound⟩

theorem exists_callHits (position : Nat) (h : call ∈ calls) :
    ∃ hit ∈ callHits position calls, hit.found = callMatch call := by
  induction calls generalizing position with
  | nil => cases h
  | cons c calls ih =>
    rcases List.mem_cons.1 h with rfl | h
    · exact ⟨_, List.mem_cons_self, rfl⟩
    · obtain ⟨hit, hhit, hfound⟩ := ih (position + (callMatch c).length) h
      exact ⟨hit, List.mem_cons_of_mem _ hhit, hfound⟩

theorem Renderable.name_eq (h : Renderable floatOf call)
    (hhit : hit.found = callMatch call) : hit.name = call.1 := by
  rw [Hit.name, hhit, callMatch, h.name_word.pyStrip, String.ofList_toList]

theorem called_callsText {known : List String} (h : ∀ call ∈ calls, Renderable floatOf call)
    (hknown : ∀ call ∈ calls, call.1 ∈ known) :
    called isWord (callsText calls) known = callHits 0 calls := by
  rw [called, hits_callsText isWord known h, List.filter_eq_self]
  intro hit hhit
  obtain ⟨call, hcall, hfound⟩ := mem_callHits hhit
  rw [(h call hcall).name_eq hfound]
  simp [hknown call hcall]

theorem Renderable.strip_body (h : Renderable floatOf call) :
    pyStrip isPySpace (bodyText call.2) = bodyText call.2 := by
  have hjson := (everywhere_dict.1 h.json).2
  have hkeys := (everywhere_dict.1 h.json).1.2
  unfold bodyText
  have hitems : ∀ kv ∈ sortItems call.2, IsWord kv.1.toList ∧ IsJson floatOf kv.2 := fun kv hkv =>
    ⟨hkeys kv (mem_sortItems.1 hkv), of_everywhere (hjson kv (mem_sortItems.1 hkv))⟩
  generalize sortItems call.2 = items at hitems
  rcases List.eq_nil_or_concat items with rfl | ⟨front, last, hlast⟩
  · rfl
  cases items with
  | nil => rfl
  | cons first rest =>
    -- the first character of the first key, and the last of the last value
    obtain ⟨c, l, hl, hc⟩ : ∃ c l, [','].intercalate ((first :: rest).map itemText) = c :: l
        ∧ isPySpace c = false := by
      obtain ⟨tail, htail⟩ : ∃ tail, [','].intercalate ((first :: rest).map itemText)
          = itemText first ++ tail := by
        cases rest with
        | nil => exact ⟨[], by simp⟩
        | cons second rest => exact ⟨_, by rw [List.map_cons, List.map_cons,
            List.intercalate_cons_cons, List.append_assoc]⟩
      have hword := (hitems first List.mem_cons_self).1
      rw [htail, itemText]
      cases hkey : first.1.toList with
      | nil => exact ⟨':', _, rfl, by decide⟩
      | cons c l =>
        exact ⟨c, _, rfl, isPySpace_of_isNameChar (hword c (hkey ▸ List.mem_cons_self))⟩
    obtain ⟨l', d, hl', hd⟩ : ∃ l' d, [','].intercalate ((first :: rest).map itemText) = l' ++ [d]
        ∧ isPySpace d = false := by
      have hmem : last ∈ first :: rest := by
        rw [hlast]
        simp
      obtain ⟨-, lv, d, hlv, hd⟩ := fmtArg_ends (hitems last hmem).2
      obtain ⟨initial, hinitial⟩ : ∃ initial, [','].intercalate ((first :: rest).map itemText)
          = initial ++ itemText last := by
        rw [hlast, List.concat_eq_append, List.map_append, List.map_singleton]
        clear hlast hmem hl hitems
        induction front with
        | nil => exact ⟨[], by simp⟩
        | cons kv front ih =>
          obtain ⟨initial, hinitial⟩ := ih
          refine ⟨itemText kv ++ [','] ++ initial, ?_⟩
          rw [List.map_cons, List.cons_append, List.intercalate_cons_of_ne_nil (by simp),
            hinitial, List.append_assoc, List.append_assoc, List.append_assoc]
      exact ⟨initial ++ (last.1.toList ++ ':' :: lv), d,
        by rw [hinitial, itemText, hlv]; simp, hd⟩
    exact pyStrip_of_ends hl hc hl' hd

theorem Renderable.parseArgs (h : Renderable floatOf call) : (Everywhere Fits (.dict call.2) →
      ∃ n, parseArgs floatOf n (bodyText call.2) = Run.ok (sortItems (readFields call.2)))
    ∧ (¬ Everywhere Fits (.dict call.2) →
      ∀ n args, Gemma.parseArgs floatOf n (bodyText call.2) ≠ Run.ok args) := by
  obtain ⟨n, r, hread⟩ := exists_readBack _ h.json
  have hbraced : braced (bodyText call.2) = fmtArg false (.dict call.2) ++ [] := by
    rw [braced, h.strip_body, fmtArg_dict, List.append_nil]
  have hparse := hread.reads [] delimited_nil
  rw [← hbraced] at hparse
  by_cases hempty : bodyText call.2 = []
  · have hnil : call.2 = [] := by
      by_contra hne
      obtain ⟨kv, hkv⟩ := List.exists_mem_of_ne_nil _ hne
      obtain ⟨first, rest, hsorted⟩ := List.exists_cons_of_ne_nil
        (List.ne_nil_of_mem (mem_sortItems.2 hkv))
      rw [bodyText, hsorted, List.map_cons] at hempty
      cases rest with
      | nil => simp [itemText] at hempty
      | cons second rest =>
        rw [List.map_cons, List.intercalate_cons_cons] at hempty
        simp at hempty
    refine ⟨fun _ => ⟨0, ?_⟩, fun hnot => ?_⟩
    · rw [hnil]
      rfl
    · refine absurd ?_ hnot
      rw [everywhere_dict, hnil]
      exact ⟨trivial, by simp⟩
  · have hstrip : pyStrip isPySpace (bodyText call.2) ≠ [] := by rwa [h.strip_body]
    refine ⟨fun hfits => ⟨n, ?_⟩, fun hnot m args hargs => ?_⟩
    · rw [Gemma.parseArgs, if_neg hstrip, hparse, hread.fits hfits, readValue]
      rfl
    · obtain ⟨e, he⟩ := hread.raises hnot
      rw [he] at hparse
      rw [Gemma.parseArgs, if_neg hstrip, Run.andThen_eq_ok_iff] at hargs
      obtain ⟨p, hp, -⟩ := hargs
      have hp' := parseValue_extends (Nat.le_max_left m n) _ _ hp
      have hparse' := parseValue_extends (Nat.le_max_right m n) _ _ hparse
      rw [hp'] at hparse'
      cases hparse'

/-! ## Equal arguments -/

theorem sortItems_sortItems (kvs : List (String × Value)) :
    sortItems (sortItems kvs) = sortItems kvs := by
  have htotal : Std.Total (fun a b : String × Value => a.1 ≤ b.1) :=
    ⟨fun a b => String.le_total a.1 b.1⟩
  have htrans : IsTrans (String × Value) (fun a b => a.1 ≤ b.1) :=
    ⟨fun _ _ _ => String.le_trans⟩
  exact (List.pairwise_insertionSort _ kvs).insertionSort_eq

theorem data_dict (kvs : List (String × Value)) : (Value.dict kvs).data
    = .obj ((sortItems kvs).map (fun kv => (kv.1.toList, kv.2.data))) := by
  have hsort : Value.sortFields (Value.dataFields kvs)
      = (sortItems kvs).map (fun kv => (kv.1, kv.2.data)) := by
    rw [Value.dataFields_eq_map, map_sortItems]
    rfl
  rw [Value.data, hsort, List.map_map]
  rfl

mutual

theorem data_readValue_iff : ∀ v, Everywhere (IsJson floatOf) v →
    ((readValue v).data = v.data ↔ Everywhere Pointed v)
  | .list xs, h => by
    rw [readValue, readElements_eq_map, Value.data, Value.data, JsonText.Data.arr.injEq,
      Value.dataElements_eq_map, Value.dataElements_eq_map, List.map_map, List.map_inj_left,
      everywhere_list]
    have hxs := data_readElements_iff xs (everywhere_list.1 h).2
    exact ⟨fun hall => ⟨trivial, fun x hx => (hxs x hx).1 (hall x hx)⟩,
      fun hall x hx => (hxs x hx).2 (hall.2 x hx)⟩
  | .dict kvs, h => by
    have hkvs := data_readFields_iff kvs (everywhere_dict.1 h).2
    rw [readValue, data_dict, data_dict, sortItems_sortItems, sortItems_readFields,
      JsonText.Data.obj.injEq, List.map_map, List.map_inj_left, everywhere_dict]
    constructor
    · intro hall
      refine ⟨trivial, fun kv hkv => (hkvs kv hkv).1 ?_⟩
      exact (Prod.mk.inj (hall kv (mem_sortItems.2 hkv))).2
    · intro hall kv hkv
      have hkv := mem_sortItems.1 hkv
      exact Prod.ext rfl ((hkvs kv hkv).2 (hall.2 kv hkv))
  | .float literal, h => by
    show _ ↔ '.' ∈ literal.letters
    rw [readValue, List.contains_eq_mem]
    by_cases hpoint : '.' ∈ literal.letters
    · simp [hpoint]
    · simp [hpoint, Value.data]
  | .null, _ => iff_of_true rfl trivial
  | .bool _, _ => iff_of_true rfl trivial
  | .int _, _ => iff_of_true rfl trivial
  | .str _, _ => iff_of_true rfl trivial
  | .object _, h => h.elim

theorem data_readElements_iff : ∀ xs : List Value, (∀ x ∈ xs, Everywhere (IsJson floatOf) x) →
    ∀ x ∈ xs, ((readValue x).data = x.data ↔ Everywhere Pointed x)
  | [], _, _, hx => by cases hx
  | x :: xs, h, y, hy => by
    rcases List.mem_cons.1 hy with heq | hy
    · rw [heq]
      exact data_readValue_iff x (h x List.mem_cons_self)
    · exact data_readElements_iff xs (fun z hz => h z (List.mem_cons_of_mem _ hz)) y hy

theorem data_readFields_iff : ∀ kvs : List (String × Value),
    (∀ kv ∈ kvs, Everywhere (IsJson floatOf) kv.2) →
    ∀ kv ∈ kvs, ((readValue kv.2).data = kv.2.data ↔ Everywhere Pointed kv.2)
  | [], _, _, hkv => by cases hkv
  | (k, x) :: kvs, h, y, hy => by
    rcases List.mem_cons.1 hy with heq | hy
    · rw [heq]
      exact data_readValue_iff x (h (k, x) List.mem_cons_self)
    · exact data_readFields_iff kvs (fun z hz => h z (List.mem_cons_of_mem _ hz)) y hy

end

/-! ## The round trip -/

def assistantCalls (calls : List (String × List (String × Value))) : List AssistantCall :=
  calls.map fun call => { name := some call.1, arguments := some (.dict call.2) }

theorem renderAssistantCalls_eq (loads : String → Option Value)
    (calls : List (String × List (String × Value))) :
    renderAssistantCalls loads (assistantCalls calls) = callsText calls := by
  rw [renderAssistantCalls, assistantCalls, List.flatMap_map]
  rfl

/-- The parser gives back the same calls in their order, with the same arguments up to the order of
    their keys. -/
def RoundTrips (isWord : Char → Bool) (floatOf : List Char → FloatLiteral)
    (loads : String → Option Value) (known : List String)
    (calls : List (String × List (String × Value))) : Prop :=
  ∃ fuel parsed, parse isWord floatOf fuel (renderAssistantCalls loads (assistantCalls calls)) known
      = Run.ok parsed
    ∧ parsed.map (fun call => (call.toolName, (Value.dict call.args).data))
      = calls.map (fun call => (call.1, (Value.dict call.2).data))

variable {calls : List (String × List (String × Value))}

theorem callsOf_callHits (h : ∀ call ∈ calls, Renderable floatOf call)
    (hfits : ∀ call ∈ calls, Everywhere Fits (.dict call.2)) (position : Nat) :
    ∃ n, callsOf floatOf n (callHits position calls) = Run.ok (calls.map fun call =>
      { toolName := call.1, args := sortItems (readFields call.2) }) := by
  induction calls generalizing position with
  | nil => exact ⟨0, rfl⟩
  | cons call calls ih =>
    obtain ⟨k, hk⟩ := (h call List.mem_cons_self).parseArgs.1 (hfits call List.mem_cons_self)
    obtain ⟨n, hn⟩ := ih (fun c hc => h c (List.mem_cons_of_mem _ hc))
      (fun c hc => hfits c (List.mem_cons_of_mem _ hc)) (position + (callMatch call).length)
    have hk' := parseArgs_extends (Nat.le_max_left k n) _ _ hk
    have hn' := callsOf_extends (Nat.le_max_right k n) _ _ hn
    have hname : (Hit.mk position (callMatch call)).name = call.1 :=
      (h call List.mem_cons_self).name_eq rfl
    refine ⟨max k n, ?_⟩
    rw [callHits, callsOf]
    show (parseArgs floatOf (max k n) (bodyText call.2)).andThen _ = _
    rw [hk']
    show (callsOf floatOf (max k n) (callHits (position + (callMatch call).length) calls)).andThen _
      = _
    rw [hn', hname]
    rfl

theorem fits_of_parse {isWord : Char → Bool} {loads : String → Option Value} {known : List String}
    (h : ∀ call ∈ calls, Renderable floatOf call)
    (hknown : ∀ call ∈ calls, call.1 ∈ known) {fuel : Nat} {parsed : List Call}
    (hparsed : parse isWord floatOf fuel (renderAssistantCalls loads (assistantCalls calls)) known
      = Run.ok parsed) : ∀ call ∈ calls, Everywhere Fits (.dict call.2) := by
  intro call hcall
  by_contra hnot
  rw [parse, renderAssistantCalls_eq, called_callsText isWord h hknown] at hparsed
  obtain ⟨hit, hhit, hfound⟩ := exists_callHits 0 hcall
  obtain ⟨n, args, hargs⟩ := (callsOf_returns_iff (callHits 0 calls)).1 ⟨fuel, parsed, hparsed⟩ hit hhit
  rw [hfound] at hargs
  exact (h call hcall).parseArgs.2 hnot n args hargs

theorem roundTrips_of_fits (isWord : Char → Bool) (loads : String → Option Value) {known : List String}
    (h : ∀ call ∈ calls, Renderable floatOf call) (hknown : ∀ call ∈ calls, call.1 ∈ known)
    (hfits : ∀ call ∈ calls, Everywhere Fits (.dict call.2)) :
    RoundTrips isWord floatOf loads known calls ↔ ∀ call ∈ calls, Everywhere Pointed (.dict call.2) := by
  have hdata : ∀ call ∈ calls, (((call.1, (Value.dict (sortItems (readFields call.2))).data)
      = (call.1, (Value.dict call.2).data)) ↔ Everywhere Pointed (.dict call.2)) := by
    intro call hcall
    rw [← data_readValue_iff _ (h call hcall).json, readValue, Prod.mk.injEq]
    exact and_iff_right rfl
  have hresult : (calls.map fun call =>
      ({ toolName := call.1, args := sortItems (readFields call.2) } : Call)).map
        (fun call => (call.toolName, (Value.dict call.args).data))
      = calls.map (fun call => (call.1, (Value.dict call.2).data))
        ↔ ∀ call ∈ calls, Everywhere Pointed (.dict call.2) := by
    rw [List.map_map, List.map_inj_left]
    exact forall₂_congr hdata
  obtain ⟨n, hn⟩ := callsOf_callHits h hfits 0
  unfold RoundTrips parse
  rw [renderAssistantCalls_eq, called_callsText isWord h hknown]
  constructor
  · rintro ⟨fuel, parsed, hparsed, hsame⟩
    -- whatever the fuel, a run that ends is the run above
    have hparsed' := callsOf_extends (Nat.le_max_left fuel n) _ _ hparsed
    have hn' := callsOf_extends (Nat.le_max_right fuel n) _ _ hn
    rw [Except.ok.inj (Option.some.inj (hparsed'.symm.trans hn'))] at hsame
    exact hresult.1 hsame
  · intro hpointed
    exact ⟨n, _, hn, hresult.2 hpointed⟩

/-- Rendered calls of bound tools round trip exactly when each of their floats is written with a point
    and each of their integers fits. -/
theorem roundTrips_iff (isWord : Char → Bool) (loads : String → Option Value) (known : List String)
    (calls : List (String × List (String × Value))) (h : ∀ call ∈ calls, Renderable floatOf call)
    (hknown : ∀ call ∈ calls, call.1 ∈ known) : RoundTrips isWord floatOf loads known calls
      ↔ ∀ call ∈ calls, Everywhere Fits (.dict call.2) ∧ Everywhere Pointed (.dict call.2) := by
  constructor
  · intro htrip
    obtain ⟨fuel, parsed, hparsed, -⟩ := id htrip
    have hfits := fits_of_parse h hknown hparsed
    have hpointed := (roundTrips_of_fits isWord loads h hknown hfits).1 htrip
    exact fun call hcall => ⟨hfits call hcall, hpointed call hcall⟩
  · intro hgood
    refine (roundTrips_of_fits isWord loads h hknown (fun call hcall => (hgood call hcall).1)).2 ?_
    exact fun call hcall => (hgood call hcall).2

private def twoPointFive : FloatLiteral :=
  { letters := "2.5".toList, ne_nil := by decide, bare := by decide, float := by decide }

private def tenTo16 : FloatLiteral :=
  { letters := "1e+16".toList, ne_nil := by decide, bare := by decide, float := by decide }

private def floatOfEither (letters : List Char) : FloatLiteral :=
  if letters = "2.5".toList then twoPointFive else tenTo16

private def isLatinWord (c : Char) : Bool := c.isAlphanum || c == '_'

private theorem renderable_twoPointFive :
    Renderable floatOfEither ("f", [("a", .list [.int 1, .float twoPointFive]), ("b", .str "x")]) := by
  have hrepr : IsFloatRepr twoPointFive.letters :=
    ⟨[], ['2'], ['.', '5'], [], by decide, by simp, by simp, by simp, Or.inr ⟨['5'], by simp⟩, by simp⟩
  have hstr : ¬ strDelimiter <:+: ['x'] ∧ ¬ closer <:+: ['x'] := by decide
  have hwords : ∀ c ∈ ['a', 'b', 'f'], isNameChar c = true :=
    List.all_eq_true.1 (by decide : ['a', 'b', 'f'].all isNameChar = true)
  refine ⟨by simp, fun c hc => hwords c ?_, ?_⟩
  · simpa using Or.inr (Or.inr hc)
  · simp [Everywhere, EverywhereFields, EverywhereElements, IsJson, IsWord, hrepr, hwords]
    exact ⟨rfl, hstr⟩

private theorem renderable_tenTo16 : Renderable floatOfEither ("f", [("a", .float tenTo16)]) := by
  have hrepr : IsFloatRepr tenTo16.letters :=
    ⟨[], ['1'], [], ['e', '+', '1', '6'], by decide, by simp, by simp, by simp, by simp,
      Or.inr ⟨'+', ['1', '6'], by simp⟩⟩
  have hwords : ∀ c ∈ ['a', 'f'], isNameChar c = true :=
    List.all_eq_true.1 (by decide : ['a', 'f'].all isNameChar = true)
  refine ⟨by simp, fun c hc => hwords c ?_, ?_⟩
  · simpa using Or.inr hc
  · simp [Everywhere, EverywhereFields, IsJson, IsWord, hrepr, hwords]
    rfl

/-- A call with an integer, a decimal number and a string comes back. -/
theorem roundTrips_twoPointFive : RoundTrips isLatinWord floatOfEither (fun _ => none) ["f"]
    [("f", [("a", .list [.int 1, .float twoPointFive]), ("b", .str "x")])] := by
  refine (roundTrips_iff isLatinWord _ ["f"] _ ?_ (by simp)).2 ?_
  · simpa using renderable_twoPointFive
  · simp [Everywhere, EverywhereFields, EverywhereElements, Fits, Pointed, maxStrDigits]
    decide

/-- A call with `1e16` does not: the number comes back as the string `1e+16`. -/
theorem not_roundTrips_tenTo16 : Renderable floatOfEither ("f", [("a", .float tenTo16)])
    ∧ ¬ RoundTrips isLatinWord floatOfEither (fun _ => none) ["f"] [("f", [("a", .float tenTo16)])] := by
  refine ⟨renderable_tenTo16, ?_⟩
  rw [roundTrips_of_fits isLatinWord _ (by simpa using renderable_tenTo16) (by simp)
    (by simp [Everywhere, EverywhereFields, Fits])]
  simp [Everywhere, EverywhereFields, Pointed]
  decide

end Himmy.Gemma
