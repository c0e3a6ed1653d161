import Himmy.Tools.Endpoints
import Mathlib.Data.List.Forall2
import Mathlib.Data.List.TakeWhile

/-! # The shape of the URL of an HTTP tool

Whatever fills the placeholders, no separator comes from it, so the URL has the segments of the template
and each placeholder is read back from its place. Only a leading segment that is filled with nothing
goes, and a segment of dots stays one when its placeholders are empty (`keepsEndpoint_iff`). -/

namespace Himmy

open Url
open Percent (quote mem_quote isUnreserved decode)

section

variable {ν : Type} {str : ν → List Char}

/-! ## Segments -/

/-- The path of what follows the base: a query or a fragment ends it. -/
def pathPart (text : List Char) : List Char := text.takeWhile (fun c => c ≠ '?' && c ≠ '#')

def segments (text : List Char) : List (List Char) := (pathPart text).splitOn '/'

def templatePath (template : List TemplateItem) : List TemplateItem :=
  (template.dropWhile (fun item => item = .char '/')).takeWhile
    (fun item => item ≠ .char '?' && item ≠ .char '#')

def templateSegments (template : List TemplateItem) : List (List TemplateItem) :=
  (templatePath template).splitOn (.char '/')

theorem not_mem_quote {text : List Char} {c : Char} (h : c ∈ ['/', '?', '#']) : c ∉ quote text := by
  intro hmem
  rcases mem_quote hmem with rfl | hunreserved
  · exact absurd h (by decide)
  · simp only [List.mem_cons, List.not_mem_nil, or_false] at h
    rcases h with rfl | rfl | rfl <;> exact absurd hunreserved (by decide)

variable (args : List (String × ν))

theorem lstripSlashes_filledPath (template : List TemplateItem) :
    lstripSlashes (filledPath str args template)
      = lstripSlashes (filledPath str args (template.dropWhile (fun item => item = .char '/'))) := by
  induction template with
  | nil => rfl
  | cons item template ih =>
    rw [List.dropWhile_cons]
    split_ifs with hslash
    · obtain rfl : item = .char '/' := by simpa using hslash
      exact ih
    · rfl

theorem pathPart_filledPath (items : List TemplateItem) : pathPart (filledPath str args items)
      = filledPath str args (items.takeWhile (fun item => item ≠ .char '?' && item ≠ .char '#')) := by
  induction items with
  | nil => rfl
  | cons item items ih =>
    unfold pathPart filledPath at ih ⊢
    cases item with
    | char c =>
      simp only [List.flatMap_cons, filledItem, List.singleton_append, List.takeWhile_cons, ih]
      by_cases hmark : c = '?' ∨ c = '#'
      · rcases hmark with rfl | rfl <;> simp
      · push Not at hmark
        simp [hmark.1, hmark.2, filledItem]
    | field name =>
      rw [List.flatMap_cons, List.takeWhile_append_of_pos, ih, List.takeWhile_cons_of_pos (by simp),
        List.flatMap_cons]
      intro c hc
      have hslashless : ∀ mark ∈ ['/', '?', '#'], c ≠ mark := by
        rintro mark hmark rfl
        exact not_mem_quote hmark hc
      simp [hslashless]

theorem splitOn_append_of_not_mem {sep : Char} {front : List Char} (h : sep ∉ front) (text : List Char) :
    (front ++ text).splitOn sep = (text.splitOn sep).modifyHead (fun first => front ++ first) := by
  induction front with
  | nil =>
    rw [List.nil_append]
    cases text.splitOn sep <;> rfl
  | cons c front ih =>
    rw [List.mem_cons, not_or] at h
    have hne : (c == sep) = false := beq_eq_false_iff_ne.mpr (Ne.symm h.1)
    rw [List.cons_append, List.splitOn_cons_eq_if_modifyHead, hne, ih h.2]
    cases text.splitOn sep <;> rfl

theorem splitOn_filledPath (items : List TemplateItem) : (filledPath str args items).splitOn '/'
      = (items.splitOn (.char '/')).map (filledPath str args) := by
  induction items with
  | nil => rfl
  | cons item items ih =>
    have hmodify : ∀ (l : List (List TemplateItem)), (l.map (filledPath str args)).modifyHead
        (fun first => filledItem str args item ++ first)
        = (l.modifyHead (List.cons item)).map (filledPath str args) := by
      rintro (_ | ⟨first, l⟩) <;> rfl
    rw [List.splitOn_cons_eq_if_modifyHead]
    by_cases hslash : item = .char '/'
    · subst hslash
      rw [if_pos (by simp), List.map_cons, ← ih]
      exact List.splitOn_cons_eq_if_modifyHead ..
    · rw [if_neg (by simpa using hslash), ← hmodify, ← ih]
      refine splitOn_append_of_not_mem ?_ _
      cases item with
      | char c => simpa [filledItem, eq_comm] using hslash
      | field name => exact not_mem_quote List.mem_cons_self

theorem segments_filledPath (template : List TemplateItem) :
    segments (filledPath str args (template.dropWhile (fun item => item = .char '/')))
      = (templateSegments template).map (filledPath str args) := by
  rw [segments, pathPart_filledPath, splitOn_filledPath, templateSegments, templatePath]

theorem length_splitOn {α : Type} [DecidableEq α] (sep : α) (l : List α) :
    (l.splitOn sep).length = l.count sep + 1 := by
  induction l with
  | nil => rfl
  | cons a l ih =>
    rw [List.splitOn_cons_eq_if_modifyHead, List.count_cons]
    split_ifs
    · rw [List.length_cons, ih]
    · rw [List.length_modifyHead, ih, Nat.add_zero]

theorem head?_eq_sep_iff {α : Type} [DecidableEq α] {sep : α} {l first : List α} {rest : List (List α)}
    (h : l.splitOn sep = first :: rest) : l.head? = some sep ↔ first = [] ∧ rest ≠ [] := by
  cases l with
  | nil =>
    rw [List.splitOn_nil] at h
    obtain ⟨rfl, rfl⟩ := List.cons.inj h
    simp
  | cons a l =>
    rw [List.splitOn_cons_eq_if_modifyHead] at h
    have hne := List.splitOn_ne_nil sep l
    split_ifs at h with hsep
    · obtain ⟨rfl, rfl⟩ := List.cons.inj h
      simpa [hne] using hsep
    · cases hl : l.splitOn sep with
      | nil => exact absurd hl hne
      | cons later others =>
        rw [hl, List.modifyHead_cons] at h
        obtain ⟨rfl, -⟩ := List.cons.inj h
        simpa using hsep

variable (text : List Char)

theorem head?_pathPart : (pathPart text).head? = some '/' ↔ text.head? = some '/' := by
  cases text with
  | nil => rfl
  | cons c text =>
    rw [pathPart, List.takeWhile_cons]
    split_ifs with hmark
    · rfl
    · simp only [Bool.and_eq_true, decide_eq_true_eq, not_and_or, not_not] at hmark
      rcases hmark with rfl | rfl <;> simp

theorem filledItem_eq_rawItem {args : List (String × ν)} {item : TemplateItem}
    (h : (∀ c ∈ filledItem str args item, isUnreserved c = true)
      ∨ ∀ c ∈ rawItem str args item, isUnreserved c = true) :
    filledItem str args item = rawItem str args item := by
  cases item with
  | char c => rfl
  | field name =>
    rcases h with hfilled | hraw
    · exact Percent.quote_of_quote_unreserved hfilled
    · exact Percent.quote_of_unreserved hraw

theorem filledPath_eq_iff (items : List TemplateItem) {text : List Char}
    (h : ∀ c ∈ text, isUnreserved c = true) :
    filledPath str args items = text ↔ rawPath str args items = text := by
  have hsame : filledPath str args items = text ∨ rawPath str args items = text →
      filledPath str args items = rawPath str args items := by
    intro htext
    refine List.flatMap_congr fun item hitem => filledItem_eq_rawItem ?_
    refine htext.imp (fun hfilled c hc => h c ?_) (fun hraw c hc => h c ?_)
    · exact hfilled ▸ List.mem_flatMap.mpr ⟨item, hitem, hc⟩
    · exact hraw ▸ List.mem_flatMap.mpr ⟨item, hitem, hc⟩
  constructor
  · intro hfilled
    rw [← hsame (.inl hfilled), hfilled]
  · intro hraw
    rw [hsame (.inr hraw), hraw]

/-! ## The segments of the URL -/

/-- The leading segment of the template is filled with nothing, and others follow it. -/
def LosesSegment (str : ν → List Char) (args : List (String × ν)) (template : List TemplateItem) : Prop :=
  ∃ first rest, templateSegments template = first :: rest ∧ rest ≠ [] ∧ rawPath str args first = []

def HasDotSegment (str : ν → List Char) (args : List (String × ν)) (template : List TemplateItem) : Prop :=
  ∃ segment ∈ templateSegments template, rawPath str args segment ∈ [['.'], ['.', '.']]

theorem head?_filledPath_iff (template : List TemplateItem) :
    (filledPath str args (template.dropWhile (fun item => item = .char '/'))).head? = some '/'
      ↔ LosesSegment str args template := by
  rw [← head?_pathPart]
  have hsegments : segments (filledPath str args (template.dropWhile (fun item => item = .char '/')))
      = (templateSegments template).map (filledPath str args) := segments_filledPath args template
  rw [segments] at hsegments
  cases htemplate : templateSegments template with
  | nil => exact absurd htemplate (List.splitOn_ne_nil _ _)
  | cons first rest =>
    rw [htemplate, List.map_cons] at hsegments
    rw [head?_eq_sep_iff hsegments, filledPath_eq_iff args first (by simp), ne_eq, List.map_eq_nil_iff,
      LosesSegment]
    constructor
    · rintro ⟨hfirst, hrest⟩
      exact ⟨first, rest, htemplate, hrest, hfirst⟩
    · rintro ⟨first', rest', hcons, hrest, hfirst⟩
      rw [htemplate] at hcons
      obtain ⟨rfl, rfl⟩ := List.cons.inj hcons
      exact ⟨hfirst, hrest⟩

variable {template : List TemplateItem}

theorem segments_of_not_loses {args : List (String × ν)} (h : ¬ LosesSegment str args template) :
    segments (lstripSlashes (filledPath str args template))
      = (templateSegments template).map (filledPath str args) := by
  rw [← head?_filledPath_iff] at h
  rw [lstripSlashes_filledPath, ← segments_filledPath]
  generalize filledPath str args (template.dropWhile (fun item => item = .char '/')) = text at h ⊢
  cases text with
  | nil => rfl
  | cons c text => rw [lstripSlashes, List.dropWhile_cons_of_neg (by simpa using h)]

theorem count_pathPart_lstripSlashes_le :
    (pathPart (lstripSlashes text)).count '/' ≤ (pathPart text).count '/' := by
  induction text with
  | nil => rfl
  | cons c text ih =>
    rw [lstripSlashes, List.dropWhile_cons]
    split_ifs with hslash
    · obtain rfl : c = '/' := by simpa using hslash
      calc (pathPart (lstripSlashes text)).count '/' ≤ (pathPart text).count '/' := ih
        _ ≤ (pathPart ('/' :: text)).count '/' := by
          rw [pathPart, pathPart, List.takeWhile_cons_of_pos (by decide), List.count_cons]
          omega
    · exact le_refl _

theorem segments_of_loses {args : List (String × ν)} (h : LosesSegment str args template) :
    (segments (lstripSlashes (filledPath str args template))).length < (templateSegments template).length := by
  rw [← head?_filledPath_iff] at h
  have hlength : (segments (filledPath str args (template.dropWhile (fun item => item = .char '/')))).length
      = (templateSegments template).length := by rw [segments_filledPath, List.length_map]
  rw [lstripSlashes_filledPath, ← hlength]
  generalize filledPath str args (template.dropWhile (fun item => item = .char '/')) = text at h ⊢
  cases text with
  | nil => simp at h
  | cons c text =>
    obtain rfl : c = '/' := by simpa using h
    have hle := count_pathPart_lstripSlashes_le text
    rw [segments, segments, length_splitOn, length_splitOn, lstripSlashes,
      List.dropWhile_cons_of_pos (by decide), pathPart, pathPart, List.takeWhile_cons_of_pos (by decide),
      List.count_cons_self]
    exact Nat.succ_lt_succ (Nat.lt_succ_of_le hle)

/-! ## Placeholders -/

/-- A piece of the URL fills an item: that of a placeholder reads back as its argument, and parts nothing. -/
def Fills (str : ν → List Char) (args : List (String × ν)) : TemplateItem → List Char → Prop
  | .char c, piece => piece = [c]
  | .field name, piece => ∃ value, args.lookup name = some value ∧ decode piece = some (str value)
      ∧ ∀ c ∈ piece, c ∉ ['/', '?', '#']

theorem forall₂_fills {args : List (String × ν)} (h : HasArgs template args) :
    List.Forall₂ (Fills str args) template (template.map (filledItem str args)) := by
  rw [List.forall₂_map_right_iff, List.forall₂_same]
  intro item hitem
  cases item with
  | char c => rfl
  | field name =>
    obtain ⟨value, hvalue⟩ := Option.isSome_iff_exists.mp (h name hitem)
    refine ⟨value, hvalue, ?_, ?_⟩
    · rw [filledItem, hvalue, Option.elim_some, Percent.decode_quote]
    · intro c hc hmark
      exact not_mem_quote hmark hc

theorem count_filledPath (items : List TemplateItem) :
    (filledPath str args items).count '/' = items.count (.char '/') := by
  have hfilled := length_splitOn '/' (filledPath str args items)
  have hitems := length_splitOn (.char '/') items
  rw [splitOn_filledPath, List.length_map] at hfilled
  omega

theorem eq_of_lstripSlashes {s t : List Char} (hcount : s.count '/' = t.count '/')
    (h : lstripSlashes s = lstripSlashes t) : s = t := by
  have hslashes : ∀ text : List Char, ∃ n, text = List.replicate n '/' ++ lstripSlashes text := by
    intro text
    refine ⟨(text.takeWhile (fun c => c = '/')).length, ?_⟩
    have hreplicate : text.takeWhile (fun c => c = '/')
        = List.replicate (text.takeWhile (fun c => c = '/')).length '/' :=
      List.eq_replicate_length.mpr fun c hc => by simpa using List.mem_takeWhile_imp hc
    rw [← hreplicate]
    exact List.takeWhile_append_dropWhile.symm
  obtain ⟨m, hm⟩ := hslashes s
  obtain ⟨n, hn⟩ := hslashes t
  rw [hm, hn, h, List.count_append, List.count_append, List.count_replicate_self,
    List.count_replicate_self] at hcount
  rw [hm, hn, h, Nat.add_right_cancel hcount]

theorem append_inj_of_count {α : Type} [DecidableEq α] {sep : α} {s t x y : List α}
    (h : s ++ x = t ++ y) (hcount : s.count sep = t.count sep) (hs : ∀ a ∈ s.getLast?, a = sep)
    (ht : ∀ a ∈ t.getLast?, a = sep) : s = t ∧ x = y := by
  have hgap : ∀ {s t gap : List α}, t = s ++ gap → s.count sep = t.count sep →
      (∀ a ∈ t.getLast?, a = sep) → gap = [] := by
    rintro s _ gap rfl hcount hlast
    by_contra hne
    have hsep : gap.getLast hne = sep :=
      hlast _ (by rw [List.getLast?_append, List.getLast?_eq_some_getLast hne]; rfl)
    have hpos := List.count_pos_iff.mpr (hsep ▸ List.getLast_mem hne)
    rw [List.count_append] at hcount
    omega
  rcases List.append_eq_append_iff.mp h with ⟨gap, rfl, rfl⟩ | ⟨gap, rfl, rfl⟩
  · rw [hgap rfl hcount ht]
    simp
  · rw [hgap rfl hcount.symm hs]
    simp

def FillsSegment (template : List TemplateItem) (name : String) : Prop :=
  ∃ before after, template = before ++ .field name :: after ∧ (∀ item ∈ before.getLast?, item = .char '/')
    ∧ ∀ item ∈ after.head?, item ∈ [.char '/', .char '?', .char '#']

theorem getLast?_filledPath {items : List TemplateItem}
    (h : ∀ item ∈ items.getLast?, item = .char '/') :
    ∀ c ∈ (filledPath str args items).getLast?, c = '/' := by
  induction items using List.reverseRecOn with
  | nil => simp [filledPath]
  | append_singleton items item =>
    obtain rfl := h item (by simp)
    simp [filledPath, filledItem]

def upToMark : List Char := text.takeWhile (fun c => c ∉ ['/', '?', '#'])

theorem upToMark_quote {args : List (String × ν)} {after : List TemplateItem}
    (h : ∀ item ∈ after.head?, item ∈ [TemplateItem.char '/', .char '?', .char '#']) :
    upToMark (quote text ++ filledPath str args after) = quote text := by
  have hquote : ∀ c ∈ quote text, decide (c ∉ ['/', '?', '#']) = true := fun c hc =>
    decide_eq_true fun hmark => not_mem_quote hmark hc
  rw [upToMark, List.takeWhile_append_of_pos hquote]
  cases after with
  | nil => simp [filledPath]
  | cons item after =>
    have hmark := h item rfl
    simp only [List.mem_cons, List.not_mem_nil, or_false] at hmark
    rcases hmark with rfl | rfl | rfl <;> simp [filledPath, filledItem]

theorem lookup_eq_of_filledPath {name : String} {args args' : List (String × ν)}
    (hfills : FillsSegment template name)
    (h : lstripSlashes (filledPath str args template) = lstripSlashes (filledPath str args' template)) :
    (args.lookup name).elim [] str = (args'.lookup name).elim [] str := by
  have hpath := eq_of_lstripSlashes (by rw [count_filledPath, count_filledPath]) h
  obtain ⟨before, after, rfl, hbefore, hafter⟩ := hfills
  unfold filledPath at hpath
  rw [List.flatMap_append, List.flatMap_append, List.flatMap_cons, List.flatMap_cons] at hpath
  have hrest := (append_inj_of_count hpath (by
    rw [← filledPath, ← filledPath, count_filledPath, count_filledPath])
    (getLast?_filledPath args hbefore) (getLast?_filledPath args' hbefore)).2
  have hquote := congrArg upToMark hrest
  rw [filledItem, filledItem, ← filledPath, ← filledPath, upToMark_quote _ hafter,
    upToMark_quote _ hafter] at hquote
  exact Percent.quote_injective hquote

/-! ## The parsed URL -/

theorem takeWhile_append_stop {p : Char → Bool} {stop : Char} (h : p stop = false) (front rest : List Char) :
    (front ++ stop :: rest).takeWhile p = front.takeWhile p := by
  induction front with
  | nil => rw [List.nil_append, List.takeWhile_cons_of_neg (by simp [h]), List.takeWhile_nil]
  | cons c front ih => rw [List.cons_append, List.takeWhile_cons, List.takeWhile_cons, ih]

theorem dropWhile_append_stop {p : Char → Bool} {stop : Char} (h : p stop = false) (front rest : List Char) :
    (front ++ stop :: rest).dropWhile p = front.dropWhile p ++ stop :: rest := by
  induction front with
  | nil => rw [List.nil_append, List.dropWhile_cons_of_neg (by simp [h]), List.dropWhile_nil, List.nil_append]
  | cons c front ih =>
    rw [List.cons_append, List.dropWhile_cons, List.dropWhile_cons, ih]
    split_ifs
    · rfl
    · rfl

variable {front rest : List Char}

theorem splitScheme_append (h : (splitScheme (front ++ '/' :: rest)).1 ≠ []) :
    splitScheme (front ++ '/' :: rest) = ((splitScheme front).1, (splitScheme front).2 ++ '/' :: rest) := by
  by_cases hcolon : ':' ∈ front
  · obtain ⟨before, after, rfl, hbefore⟩ := List.eq_append_cons_of_mem hcolon
    have hsplit : ∀ later : List Char, partition ':' (before ++ ':' :: later) = (before, some later) := by
      intro later
      have hall : ∀ c ∈ before, decide (c ≠ ':') = true := fun c hc =>
        decide_eq_true fun heq => hbefore (heq ▸ hc)
      rw [partition, if_pos (by simp), takeWhile_append_stop (by simp), dropWhile_append_stop (by simp),
        List.takeWhile_eq_self_iff.mpr hall, List.dropWhile_eq_nil_iff.mpr hall]
      rfl
    rw [List.append_assoc, List.cons_append]
    unfold splitScheme
    rw [hsplit, hsplit]
    dsimp only
    split_ifs
    · rfl
    · simp
  · -- without a colon before it, the slash is among what would be the scheme
    refine absurd ?_ h
    unfold splitScheme partition
    by_cases hlater : ':' ∈ front ++ '/' :: rest
    · have hslash : '/' ∈ (front ++ '/' :: rest).takeWhile (fun c => decide (c ≠ ':')) := by
        have hall : ∀ c ∈ front, decide (c ≠ ':') = true := fun c hc =>
          decide_eq_true fun heq => hcolon (heq ▸ hc)
        rw [List.takeWhile_append_of_pos hall]
        simp
      have hchars : ((front ++ '/' :: rest).takeWhile (fun c => decide (c ≠ ':'))).all isSchemeChar = false := by
        rw [List.all_eq_false]
        exact ⟨'/', hslash, by decide⟩
      simp only [if_pos hlater, hchars, Bool.and_false, Bool.false_eq_true, if_false]
    · simp only [if_neg hlater]

theorem splitNetloc_append (hlast : front.getLast? ≠ some '/') (hhead : rest.head? ≠ some '/') :
    splitNetloc (front ++ '/' :: rest) = ((splitNetloc front).1, (splitNetloc front).2 ++ '/' :: rest) := by
  unfold splitNetloc
  rcases front with _ | ⟨c, _ | ⟨d, front⟩⟩
  · cases rest with
    | nil => simp
    | cons c rest => simp_all
  · simp_all
  · simp only [List.cons_append, List.take_succ_cons, List.take_zero, List.drop_succ_cons, List.drop_zero]
    split_ifs
    · rw [takeWhile_append_stop (by decide), dropWhile_append_stop (by decide)]
    · rfl

/-- The text that `urlsplit` reads. -/
def cleanedUrl : List Char :=
  (text.dropWhile (fun c => c.toNat ≤ 0x20)).filter (fun c => c ∉ ['\t', '\r', '\n'])

def uncheckedParts : SplitResult :=
  let (scheme, rest) := splitScheme (cleanedUrl text)
  let (netloc, rest) := splitNetloc rest
  let (rest, fragment) := partition '#' rest
  let (path, query) := partition '?' rest
  { scheme := scheme, netloc := netloc, path := path, query := query.getD [],
    fragment := fragment.getD [] }

theorem urlsplit_ok_iff (unicode : UnicodeData) (text : List Char) (parts : SplitResult) :
    urlsplit unicode (String.ofList text) = .ok parts
      ↔ checkBrackets (uncheckedParts text).netloc = .ok ()
        ∧ checkNetloc unicode (uncheckedParts text).netloc = .ok () ∧ uncheckedParts text = parts := by
  have hsplit : urlsplit unicode (String.ofList text)
      = (checkBrackets (uncheckedParts text).netloc).bind (fun _ =>
        (checkNetloc unicode (uncheckedParts text).netloc).bind (fun _ => .ok (uncheckedParts text))) := by
    rw [urlsplit, String.toList_ofList]
    rfl
  rw [hsplit]
  cases checkBrackets (uncheckedParts text).netloc with
  | error e => simp [Except.bind]
  | ok _ =>
    cases checkNetloc unicode (uncheckedParts text).netloc with
    | error e => simp [Except.bind]
    | ok _ => simp [Except.bind]

/-- A text that `urlsplit` takes no character out of. -/
def HasNoBreaks : Prop := ∀ c ∈ text, c ∉ ['\t', '\r', '\n']

theorem filter_of_hasNoBreaks {text : List Char} (h : HasNoBreaks text) :
    text.filter (fun c => c ∉ ['\t', '\r', '\n']) = text :=
  List.filter_eq_self.mpr fun c hc => decide_eq_true (h c hc)

theorem HasNoBreaks.dropWhile {text : List Char} (h : HasNoBreaks text) (p : Char → Bool) :
    HasNoBreaks (text.dropWhile p) := fun c hc => h c ((List.dropWhile_sublist p).subset hc)

theorem cleanedUrl_append (hfront : HasNoBreaks front) (hrest : HasNoBreaks rest) :
    cleanedUrl (front ++ '/' :: rest) = cleanedUrl front ++ '/' :: rest := by
  rw [cleanedUrl, cleanedUrl, dropWhile_append_stop (by decide), List.filter_append,
    filter_of_hasNoBreaks (hfront.dropWhile _), List.filter_cons_of_pos (by decide),
    filter_of_hasNoBreaks hrest]

theorem path_append (h : ∀ c ∈ front, c ∉ ['?', '#']) :
    (partition '?' (partition '#' (front ++ '/' :: rest)).1).1
      = (partition '?' (partition '#' front).1).1 ++ '/' :: pathPart rest := by
  have hpartition : ∀ text : List Char, (partition '?' (partition '#' text).1).1 = pathPart text := by
    intro text
    show (text.takeWhile (fun c => decide (c ≠ '#'))).takeWhile (fun c => decide (c ≠ '?')) = _
    rw [List.takeWhile_takeWhile, pathPart]
    congr 1
    funext c
    simp
  rw [hpartition, hpartition]
  have hall : ∀ c ∈ front, (decide (c ≠ '?') && decide (c ≠ '#')) = true := by
    intro c hc
    simpa using h c hc
  rw [pathPart, List.takeWhile_append_of_pos hall, List.takeWhile_cons_of_pos (by decide), pathPart, pathPart,
    List.takeWhile_eq_self_iff.mpr hall]

theorem getLast?_of_suffix {s t : List Char} (hsuffix : t <:+ s) (h : s.getLast? ≠ some '/') :
    t.getLast? ≠ some '/' := by
  obtain ⟨front, rfl⟩ := hsuffix
  intro hlast
  rw [List.getLast?_append, hlast] at h
  exact h rfl

theorem splitScheme_suffix : (splitScheme text).2 <:+ text := by
  unfold splitScheme partition
  by_cases hcolon : ':' ∈ text
  · simp only [if_pos hcolon]
    split_ifs
    · exact (List.drop_suffix 1 _).trans (List.dropWhile_suffix _)
    · exact List.suffix_rfl
  · simp only [if_neg hcolon]
    exact List.suffix_rfl

theorem splitNetloc_suffix : (splitNetloc text).2 <:+ text := by
  unfold splitNetloc
  split_ifs
  · exact (List.dropWhile_suffix _).trans (List.drop_suffix 2 text)
  · exact List.suffix_rfl

theorem urlsplit_append (unicode : UnicodeData) {parts : SplitResult}
    (hbreaks : HasNoBreaks front) (hmarks : ∀ c ∈ front, c ∉ ['?', '#']) (hrest : HasNoBreaks rest)
    (hlast : front.getLast? ≠ some '/') (hhead : rest.head? ≠ some '/')
    (h : urlsplit unicode (String.ofList (front ++ '/' :: rest)) = .ok parts) (hscheme : parts.scheme ≠ []) :
    ∃ baseParts, urlsplit unicode (String.ofList front) = .ok baseParts
      ∧ parts.path = baseParts.path ++ '/' :: pathPart rest := by
  have hcleaned : cleanedUrl front <:+ front := by
    rw [cleanedUrl, filter_of_hasNoBreaks (hbreaks.dropWhile _)]
    exact List.dropWhile_suffix _
  have hafter := (splitScheme_suffix (cleanedUrl front)).trans hcleaned
  have hpath := (splitNetloc_suffix (splitScheme (cleanedUrl front)).2).trans hafter
  obtain ⟨hbrackets, hnetloc, rfl⟩ := (urlsplit_ok_iff ..).mp h
  have hsplit : splitScheme (cleanedUrl front ++ '/' :: rest)
      = ((splitScheme (cleanedUrl front)).1, (splitScheme (cleanedUrl front)).2 ++ '/' :: rest) :=
    splitScheme_append (by rw [← cleanedUrl_append hbreaks hrest]; exact hscheme)
  have hparts : (uncheckedParts (front ++ '/' :: rest)).netloc = (uncheckedParts front).netloc
      ∧ (uncheckedParts (front ++ '/' :: rest)).path = (uncheckedParts front).path ++ '/' :: pathPart rest := by
    unfold uncheckedParts
    rw [cleanedUrl_append hbreaks hrest, hsplit]
    dsimp only
    rw [splitNetloc_append (getLast?_of_suffix hafter hlast) hhead]
    exact ⟨rfl, path_append fun c hc => hmarks c (hpath.subset hc)⟩
  rw [hparts.1] at hbrackets hnetloc
  exact ⟨_, (urlsplit_ok_iff ..).mpr ⟨hbrackets, hnetloc, rfl⟩, hparts.2⟩

/-! ## The endpoint -/

/-- Arguments change nothing of the endpoint but what fills the placeholders: the origin is that of the
    base; what follows the base has the segments of the template, none of them relative, and is the end of
    the path; each placeholder reads back as its argument and parts nothing, and one that has a segment for
    itself tells URLs apart; other arguments play no part. -/
structure KeepsEndpoint (unicode : UnicodeData) (str : ν → List Char) (base : List Char)
    (template : List TemplateItem) (args : List (String × ν)) : Prop where
  origin : ∀ url, endpointUrl unicode str base template args = .ok url →
    ∃ baseParts parts, urlsplit unicode (String.ofList base) = .ok baseParts
      ∧ urlsplit unicode (String.ofList url) = .ok parts
      ∧ parts.scheme = baseParts.scheme ∧ parts.netloc = baseParts.netloc
  shape : ∀ url, endpointUrl unicode str base template args = .ok url →
    ∃ tail, url = rstripSlashes base ++ '/' :: tail
      ∧ (segments tail).length = (templateSegments template).length
      ∧ ∀ segment ∈ segments tail, segment ∉ [['.'], ['.', '.']]
  path : HasNoBreaks base → (∀ c ∈ base, c ∉ ['?', '#']) →
    (∀ c, .char c ∈ template → c ∉ ['\t', '\r', '\n']) →
    ∀ tail parts, endpointUrl unicode str base template args = .ok (rstripSlashes base ++ '/' :: tail) →
      urlsplit unicode (String.ofList (rstripSlashes base ++ '/' :: tail)) = .ok parts →
      ∃ baseParts, urlsplit unicode (String.ofList (rstripSlashes base)) = .ok baseParts
        ∧ parts.path = baseParts.path ++ '/' :: pathPart tail
  pieces : ∀ url, endpointUrl unicode str base template args = .ok url →
    ∃ pieces, List.Forall₂ (Fills str args) template pieces
      ∧ url = rstripSlashes base ++ '/' :: lstripSlashes pieces.flatten
  distinct : ∀ args' name url, FillsSegment template name →
    endpointUrl unicode str base template args = .ok url →
    endpointUrl unicode str base template args' = .ok url →
    (args.lookup name).map str = (args'.lookup name).map str
  referenced : endpointUrl unicode str base template args
    = endpointUrl unicode str base template (referencedArgs template args)

theorem endpointUrl_ok {unicode : UnicodeData} {base url : List Char}
    {args : List (String × ν)} (h : endpointUrl unicode str base template args = .ok url) :
    HasArgs template args
      ∧ url = rstripSlashes base ++ '/' :: lstripSlashes (filledPath str args template) := by
  obtain ⟨-, hargs, hurl⟩ := (endpointUrl_ok_iff ..).mp h
  exact ⟨hargs, (assembleUrl_ok hurl).1⟩

theorem joined_inj {front s t : List Char} (h : front ++ '/' :: s = front ++ '/' :: t) : s = t :=
  (List.cons.inj (List.append_cancel_left h)).2

theorem endpointUrl_shape_iff {unicode : UnicodeData} {base url : List Char}
    {args : List (String × ν)} (h : endpointUrl unicode str base template args = .ok url) :
    (∃ tail, url = rstripSlashes base ++ '/' :: tail
        ∧ (segments tail).length = (templateSegments template).length
        ∧ ∀ segment ∈ segments tail, segment ∉ [['.'], ['.', '.']])
      ↔ ¬ LosesSegment str args template ∧ ¬ HasDotSegment str args template := by
  have hdots : ∀ items : List TemplateItem, filledPath str args items ∈ [['.'], ['.', '.']]
      ↔ rawPath str args items ∈ [['.'], ['.', '.']] := by
    intro items
    have hdot : isUnreserved '.' = true := by decide
    simp only [List.mem_cons, List.not_mem_nil, or_false]
    rw [filledPath_eq_iff args items (by simpa using hdot), filledPath_eq_iff args items (by simpa using hdot)]
  obtain ⟨-, hurl⟩ := endpointUrl_ok h
  constructor
  · rintro ⟨tail, htail, hlength, hsegments⟩
    obtain rfl := joined_inj (hurl.symm.trans htail)
    have hkept : ¬ LosesSegment str args template := fun hloses =>
      absurd hlength (segments_of_loses hloses).ne
    refine ⟨hkept, ?_⟩
    rintro ⟨segment, hsegment, hdot⟩
    rw [segments_of_not_loses hkept] at hsegments
    exact hsegments _ (List.mem_map_of_mem hsegment) ((hdots segment).mpr hdot)
  · rintro ⟨hkept, hnone⟩
    refine ⟨_, hurl, ?_, ?_⟩
    · rw [segments_of_not_loses hkept, List.length_map]
    · rw [segments_of_not_loses hkept, List.forall_mem_map]
      intro segment hsegment hdot
      exact hnone ⟨segment, hsegment, (hdots segment).mp hdot⟩

theorem hasNoBreaks_lstripSlashes_filledPath
    (h : ∀ c, .char c ∈ template → c ∉ ['\t', '\r', '\n']) :
    HasNoBreaks (lstripSlashes (filledPath str args template)) := by
  refine HasNoBreaks.dropWhile (fun c hc => ?_) _
  obtain ⟨item, hitem, hc⟩ := List.mem_flatMap.mp hc
  cases item with
  | char d =>
    obtain rfl := List.mem_singleton.mp hc
    exact h c hitem
  | field name =>
    intro hbreak
    simp only [List.mem_cons, List.not_mem_nil, or_false] at hbreak
    rcases mem_quote hc with rfl | hunreserved
    · exact absurd hbreak (by decide)
    · rcases hbreak with rfl | rfl | rfl <;> exact absurd hunreserved (by decide)

theorem head?_lstripSlashes : (lstripSlashes text).head? ≠ some '/' := by
  intro h
  have := List.head?_dropWhile_not (fun c => decide (c = '/')) text
  rw [lstripSlashes] at h
  simp [h] at this

theorem getLast?_rstripSlashes : (rstripSlashes text).getLast? ≠ some '/' := by
  rw [rstripSlashes, List.getLast?_reverse]
  exact head?_lstripSlashes _

theorem mem_of_mem_rstripSlashes {text : List Char} {c : Char} (h : c ∈ rstripSlashes text) : c ∈ text := by
  rw [rstripSlashes, List.mem_reverse] at h
  exact List.mem_reverse.mp ((List.dropWhile_sublist _).subset h)

/-- Exactly the arguments whose refusals are those of the referenced ones, that lose no leading segment
    and spell no relative one, change nothing of the endpoint. -/
theorem keepsEndpoint_iff (unicode : UnicodeData) (str : ν → List Char) (base : List Char)
    (template : List TemplateItem) (args : List (String × ν)) :
    KeepsEndpoint unicode str base template args
      ↔ firstRefusal str args = firstRefusal str (referencedArgs template args)
        ∧ ((∃ url, endpointUrl unicode str base template args = .ok url) →
          ¬ LosesSegment str args template ∧ ¬ HasDotSegment str args template) := by
  constructor
  · intro h
    refine ⟨(endpointUrl_referencedArgs_iff ..).mp h.referenced, ?_⟩
    rintro ⟨url, hurl⟩
    exact (endpointUrl_shape_iff hurl).mp (h.shape url hurl)
  · rintro ⟨hrefusal, hshape⟩
    refine ⟨?_, fun url hurl => (endpointUrl_shape_iff hurl).mpr (hshape ⟨url, hurl⟩), ?_, ?_, ?_,
      (endpointUrl_referencedArgs_iff ..).mpr hrefusal⟩
    · intro url hurl
      obtain ⟨-, -, hassembled⟩ := (endpointUrl_ok_iff ..).mp hurl
      obtain ⟨-, baseParts, parts, hbase, hparts, hscheme, hnetloc, -⟩ := assembleUrl_ok hassembled
      exact ⟨baseParts, parts, hbase, hparts, hscheme, hnetloc⟩
    · intro hbreaks hmarks htemplate tail parts hurl hparts
      obtain ⟨-, -, hassembled⟩ := (endpointUrl_ok_iff ..).mp hurl
      obtain ⟨-, -, parts', -, hparts', -, -, hscheme⟩ := assembleUrl_ok hassembled
      obtain rfl := Except.ok.inj (hparts.symm.trans hparts')
      obtain rfl := joined_inj (endpointUrl_ok hurl).2
      refine urlsplit_append unicode (fun c hc => hbreaks c (mem_of_mem_rstripSlashes hc))
        (fun c hc => hmarks c (mem_of_mem_rstripSlashes hc))
        (hasNoBreaks_lstripSlashes_filledPath args htemplate) (getLast?_rstripSlashes base)
        (head?_lstripSlashes _) hparts ?_
      rintro hempty
      rw [hempty] at hscheme
      exact absurd hscheme (by decide)
    · intro url hurl
      obtain ⟨hargs, rfl⟩ := endpointUrl_ok hurl
      exact ⟨_, forall₂_fills hargs, rfl⟩
    · intro args' name url hfills hurl hurl'
      obtain ⟨hargs, rfl⟩ := endpointUrl_ok hurl
      obtain ⟨hargs', hsame⟩ := endpointUrl_ok hurl'
      have hfield : .field name ∈ template := by
        obtain ⟨before, after, rfl, -⟩ := hfills
        simp
      have hlookup := lookup_eq_of_filledPath hfills (joined_inj hsame)
      obtain ⟨value, hvalue⟩ := Option.isSome_iff_exists.mp (hargs name hfield)
      obtain ⟨value', hvalue'⟩ := Option.isSome_iff_exists.mp (hargs' name hfield)
      rw [hvalue, hvalue'] at hlookup ⊢
      exact congrArg some hlookup

/-- A note that is no part of the path is refused, and an empty tenant takes its segment away. -/
theorem not_keepsEndpoint_note_tenant :
    ¬ KeepsEndpoint asciiData String.toList "https://api.example.com".toList
        (("/items/".toList.map TemplateItem.char) ++ [.field "id"]) [("id", "7"), ("note", "a/b")]
      ∧ ¬ KeepsEndpoint asciiData String.toList "https://api.example.com".toList
        (.char '/' :: .field "tenant" :: "/orders".toList.map TemplateItem.char) [("tenant", "")] := by
  constructor
  · intro h
    exact absurd ((endpointUrl_referencedArgs_iff ..).mp h.referenced) (by decide +kernel)
  · intro h
    have hurl : endpointUrl asciiData String.toList "https://api.example.com".toList
        (.char '/' :: .field "tenant" :: "/orders".toList.map TemplateItem.char) [("tenant", "")]
          = .ok "https://api.example.com/orders".toList := by decide +kernel
    refine ((endpointUrl_shape_iff hurl).mp (h.shape _ hurl)).1 ⟨_, _, rfl, ?_, rfl⟩
    decide +kernel

end

end Himmy
