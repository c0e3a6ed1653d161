import Himmy.Core.Url
import Himmy.Library.Percent

/-! # The endpoint of an HTTP tool

The URL that an HTTP tool calls is made of a configured base and of a path template whose placeholders
are filled with arguments that a model wrote. Each argument is checked by itself and percent-encoded, so
it can bring no separator into the URL. But it may be empty, and every argument is checked, whether the
template asks for it or not (`endpointUrl_referencedArgs_iff`). -/

namespace Himmy

open Url
open Percent (quote)

/-! ## The path -/

/-- What is raised in place of a URL. -/
inductive UrlRefusal where
  /-- `ToolSecurityError` -/
  | security (message : String)
  /-- `KeyError` -/
  | missing (key : String)
  /-- the `ValueError` of `urlsplit` -/
  | value (message : String)
  deriving DecidableEq

/-- An item of a path template as `str.format` reads it: a character, or a placeholder by the name of
    its argument. -/
inductive TemplateItem where
  | char (c : Char)
  | field (name : String)
  deriving DecidableEq

def hasControlChars (text : List Char) : Bool := text.any (fun c => c.toNat < 0x20 || c.toNat = 0x7F)

def forbiddenPathChars : List Char := ['/', '\\', '?', '#']

def pathArgRefusal (text : List Char) : Option String :=
  if hasControlChars text then some "path argument contains control characters"
  else if text.any (fun c => c ∈ forbiddenPathChars) then
    some "path argument contains a path/query separator (/, \\, ?, or #)"
  else if text = "..".toList ∨ text = ".".toList then some "path argument is a relative-path segment"
  else none

section

variable {ν : Type}

section

/- `str(value)`. -/
variable (str : ν → List Char)

def safePathArg (value : ν) : Except UrlRefusal (List Char) :=
  (pathArgRefusal (str value)).elim (.ok (quote (str value)))
    (fun message => .error (.security message))

def encodeArgs : List (String × ν) → Except UrlRefusal (List (String × List Char))
  | [] => .ok []
  | (key, value) :: args =>
    (safePathArg str value).bind (fun text => (encodeArgs args).map (fun rest => (key, text) :: rest))

def formatPath (encoded : List (String × List Char)) : List TemplateItem → Except UrlRefusal (List Char)
  | [] => .ok []
  | .char c :: template => (formatPath encoded template).map (fun path => c :: path)
  | .field name :: template =>
    match encoded.lookup name with
    | none => .error (.missing name)
    | some text => (formatPath encoded template).map (fun path => text ++ path)

def buildSafePath (template : List TemplateItem) (args : List (String × ν)) :
    Except UrlRefusal (List Char) :=
  (encodeArgs str args).bind (fun encoded => formatPath encoded template)

end

def lstripSlashes (text : List Char) : List Char := text.dropWhile (fun c => c = '/')

def rstripSlashes (text : List Char) : List Char := (lstripSlashes text.reverse).reverse

/-- `final` of `assemble_url`. -/
def joinUrl (base path : List Char) : List Char := rstripSlashes base ++ '/' :: lstripSlashes path

def assembleUrl (unicode : UnicodeData) (base path : List Char) : Except UrlRefusal (List Char) :=
  match urlsplit unicode (String.ofList base) with
  | .error e => .error (.value e)
  | .ok baseParts =>
    match urlsplit unicode (String.ofList (joinUrl base path)) with
    | .error e => .error (.value e)
    | .ok finalParts =>
      if finalParts.scheme ≠ baseParts.scheme ∨ finalParts.netloc ≠ baseParts.netloc then
        .error (.security "resolved URL host/scheme does not match the configured base URL")
      else if finalParts.scheme ∉ ["http".toList, "https".toList] then
        .error (.security ("unsupported URL scheme '" ++ String.ofList finalParts.scheme
          ++ "' (expected http/https)"))
      else .ok (joinUrl base path)

theorem assembleUrl_ok {unicode : UnicodeData} {base path url : List Char}
    (h : assembleUrl unicode base path = .ok url) : url = joinUrl base path
      ∧ ∃ baseParts parts, urlsplit unicode (String.ofList base) = .ok baseParts
        ∧ urlsplit unicode (String.ofList url) = .ok parts ∧ parts.scheme = baseParts.scheme
        ∧ parts.netloc = baseParts.netloc ∧ parts.scheme ∈ ["http".toList, "https".toList] := by
  unfold assembleUrl at h
  cases hbase : urlsplit unicode (String.ofList base) with
  | error e => simp [hbase] at h
  | ok baseParts =>
    rw [hbase] at h
    dsimp only at h
    cases hfinal : urlsplit unicode (String.ofList (joinUrl base path)) with
    | error e => simp [hfinal] at h
    | ok parts =>
      rw [hfinal] at h
      dsimp only at h
      split_ifs at h with horigin hscheme
      obtain rfl := Except.ok.inj h
      push Not at horigin
      exact ⟨rfl, baseParts, parts, rfl, hfinal, horigin.1, horigin.2, hscheme⟩

def endpointUrl (unicode : UnicodeData) (str : ν → List Char) (base : List Char)
    (template : List TemplateItem) (args : List (String × ν)) : Except UrlRefusal (List Char) :=
  (buildSafePath str template args).bind (assembleUrl unicode base)

/-! ## What fills the template -/

variable {str : ν → List Char}

def rawItem (str : ν → List Char) (args : List (String × ν)) : TemplateItem → List Char
  | .char c => [c]
  | .field name => (args.lookup name).elim [] str

def filledItem (str : ν → List Char) (args : List (String × ν)) : TemplateItem → List Char
  | .char c => [c]
  | .field name => quote ((args.lookup name).elim [] str)

def rawPath (str : ν → List Char) (args : List (String × ν)) (items : List TemplateItem) : List Char :=
  items.flatMap (rawItem str args)

def filledPath (str : ν → List Char) (args : List (String × ν)) (items : List TemplateItem) : List Char :=
  items.flatMap (filledItem str args)

def firstRefusal (str : ν → List Char) (args : List (String × ν)) : Option String :=
  args.findSome? (fun arg => pathArgRefusal (str arg.2))

def referencedArgs (template : List TemplateItem) (args : List (String × ν)) : List (String × ν) :=
  args.filter (fun arg => .field arg.1 ∈ template)

theorem encodeArgs_eq (args : List (String × ν)) :
    encodeArgs str args = (firstRefusal str args).elim
      (.ok (args.map (fun arg => (arg.1, quote (str arg.2)))))
      (fun message => .error (.security message)) := by
  induction args with
  | nil => rfl
  | cons arg args ih =>
    have hcons : firstRefusal str (arg :: args)
        = (pathArgRefusal (str arg.2)).elim (firstRefusal str args) some := by
      rw [firstRefusal, List.findSome?_cons]
      cases pathArgRefusal (str arg.2) <;> rfl
    rw [encodeArgs, ih, safePathArg, hcons]
    cases pathArgRefusal (str arg.2) with
    | some message => rfl
    | none => cases firstRefusal str args <;> rfl

theorem lookup_encoded (args : List (String × ν)) (name : String) :
    (args.map (fun arg => (arg.1, quote (str arg.2)))).lookup name
      = (args.lookup name).map (fun value => quote (str value)) := by
  induction args with
  | nil => rfl
  | cons arg args ih =>
    rw [List.map_cons, List.lookup_cons, List.lookup_cons, ih]
    split <;> rfl

variable {template : List TemplateItem}

theorem lookup_referencedArgs {name : String}
    (h : .field name ∈ template) (args : List (String × ν)) :
    (referencedArgs template args).lookup name = args.lookup name := by
  induction args with
  | nil => rfl
  | cons arg args ih =>
    obtain ⟨key, value⟩ := arg
    unfold referencedArgs at ih ⊢
    by_cases hkey : name = key
    · subst hkey
      rw [List.filter_cons_of_pos (by simpa using h), List.lookup_cons_self, List.lookup_cons_self]
    · have hne : (name == key) = false := by simpa using hkey
      rw [List.filter_cons, List.lookup_cons, hne]
      split_ifs
      · rw [List.lookup_cons, hne, ih]
      · exact ih

def HasArgs (template : List TemplateItem) (args : List (String × ν)) : Prop :=
  ∀ name, .field name ∈ template → (args.lookup name).isSome

variable {args : List (String × ν)}

theorem formatPath_of_hasArgs (h : HasArgs template args) :
    formatPath (args.map (fun arg => (arg.1, quote (str arg.2)))) template
      = .ok (filledPath str args template) := by
  induction template with
  | nil => rfl
  | cons item template ih =>
    have hlater := ih fun name hname => h name (List.mem_cons_of_mem _ hname)
    cases item with
    | char c => simp [formatPath, hlater, filledPath, filledItem, Except.map]
    | field name =>
      obtain ⟨value, hvalue⟩ := Option.isSome_iff_exists.mp (h name List.mem_cons_self)
      simp [formatPath, hlater, lookup_encoded, hvalue, filledPath, filledItem, Except.map]

theorem hasArgs_of_formatPath {path : List Char}
    (h : formatPath (args.map (fun arg => (arg.1, quote (str arg.2)))) template = .ok path) :
    HasArgs template args := by
  induction template generalizing path with
  | nil => simp [HasArgs]
  | cons item template ih =>
    cases item with
    | char c =>
      rw [formatPath] at h
      cases hlater : formatPath (args.map fun arg => (arg.1, quote (str arg.2))) template with
      | error e => simp [hlater, Except.map] at h
      | ok later => simpa [HasArgs] using ih hlater
    | field name =>
      rw [formatPath, lookup_encoded] at h
      cases hvalue : args.lookup name with
      | none => simp [hvalue] at h
      | some value =>
        cases hlater : formatPath (args.map fun arg => (arg.1, quote (str arg.2))) template with
        | error e => simp [hvalue, hlater, Except.map] at h
        | ok later =>
          intro other hother
          rcases List.mem_cons.mp hother with heq | hother
          · obtain rfl := TemplateItem.field.inj heq
            simp [hvalue]
          · exact ih hlater other hother

variable (unicode : UnicodeData) (base : List Char)

theorem endpointUrl_ok_iff (template : List TemplateItem)
    (args : List (String × ν)) (url : List Char) :
    endpointUrl unicode str base template args = .ok url
      ↔ firstRefusal str args = none ∧ HasArgs template args
        ∧ assembleUrl unicode base (filledPath str args template) = .ok url := by
  rw [endpointUrl, buildSafePath, encodeArgs_eq]
  cases hrefusal : firstRefusal str args with
  | some message => simp [Except.bind]
  | none =>
    simp only [Option.elim_none, Except.bind, true_and]
    constructor
    · intro h
      cases hpath : formatPath (args.map fun arg => (arg.1, quote (str arg.2))) template with
      | error e => simp [hpath] at h
      | ok path =>
        have hargs := hasArgs_of_formatPath hpath
        rw [formatPath_of_hasArgs hargs] at h
        exact ⟨hargs, h⟩
    · rintro ⟨hargs, h⟩
      rw [formatPath_of_hasArgs hargs]
      exact h

/-! ## Arguments that the template does not reference -/

theorem formatPath_congr {encoded encoded' : List (String × List Char)}
    (h : ∀ name, .field name ∈ template → encoded.lookup name = encoded'.lookup name) :
    formatPath encoded template = formatPath encoded' template := by
  induction template with
  | nil => rfl
  | cons item template ih =>
    have hlater := ih fun name hname => h name (List.mem_cons_of_mem _ hname)
    cases item with
    | char c => rw [formatPath, formatPath, hlater]
    | field name => rw [formatPath, formatPath, hlater, h name List.mem_cons_self]

theorem formatPath_error {encoded : List (String × List Char)}
    {e : UrlRefusal} (h : formatPath encoded template = .error e) : ∃ name, e = .missing name := by
  induction template with
  | nil => simp [formatPath] at h
  | cons item template ih =>
    cases hlater : formatPath encoded template with
    | error later =>
      cases item with
      | char c =>
        rw [formatPath, hlater] at h
        obtain rfl : later = e := by simpa [Except.map] using h
        exact ih hlater
      | field name =>
        rw [formatPath, hlater] at h
        split at h
        · exact ⟨name, by simpa [eq_comm] using h⟩
        · obtain rfl : later = e := by simpa [Except.map] using h
          exact ih hlater
    | ok path =>
      cases item with
      | char c => simp [formatPath, hlater, Except.map] at h
      | field name =>
        rw [formatPath, hlater] at h
        split at h
        · exact ⟨name, by simpa [eq_comm] using h⟩
        · simp [Except.map] at h

variable {message : String}

theorem head?_of_firstRefusal
    (h : firstRefusal str args = some message) : message.toList.head? = some 'p' := by
  obtain ⟨arg, -, harg⟩ := List.exists_of_findSome?_eq_some h
  unfold pathArgRefusal at harg
  split_ifs at harg <;> · obtain rfl := Option.some.inj harg; rfl

theorem assembleUrl_ne_refusal (base path : List Char)
    (h : message.toList.head? = some 'p') : assembleUrl unicode base path ≠ .error (.security message) := by
  unfold assembleUrl
  cases urlsplit unicode (String.ofList base) with
  | error e => simp
  | ok baseParts =>
    dsimp only
    cases urlsplit unicode (String.ofList (joinUrl base path)) with
    | error e => simp
    | ok finalParts =>
      dsimp only
      split_ifs
      · simp only [ne_eq, Except.error.injEq, UrlRefusal.security.injEq]
        rintro rfl
        exact absurd h (by decide)
      · simp
      · simp only [ne_eq, Except.error.injEq, UrlRefusal.security.injEq]
        rintro rfl
        simp [String.toList_append] at h

theorem endpointUrl_ne_refusal (template : List TemplateItem)
    (h : firstRefusal str args = none)
    (hmessage : message.toList.head? = some 'p') :
    endpointUrl unicode str base template args ≠ .error (.security message) := by
  rw [endpointUrl, buildSafePath, encodeArgs_eq, h]
  simp only [Option.elim_none, Except.bind]
  split
  · rename_i e he
    obtain ⟨name, rfl⟩ := formatPath_error he
    simp
  · exact assembleUrl_ne_refusal unicode base _ hmessage

theorem endpointUrl_referencedArgs_iff
    (template : List TemplateItem) (args : List (String × ν)) :
    endpointUrl unicode str base template args
        = endpointUrl unicode str base template (referencedArgs template args)
      ↔ firstRefusal str args = firstRefusal str (referencedArgs template args) := by
  have hrefused : ∀ {args : List (String × ν)} {message : String}, firstRefusal str args = some message →
      endpointUrl unicode str base template args = .error (.security message) := by
    intro args message h
    rw [endpointUrl, buildSafePath, encodeArgs_eq, h]
    rfl
  cases hall : firstRefusal str args with
  | none =>
    cases hreferenced : firstRefusal str (referencedArgs template args) with
    | none =>
      refine iff_of_true ?_ rfl
      rw [endpointUrl, endpointUrl, buildSafePath, buildSafePath, encodeArgs_eq, encodeArgs_eq, hall,
        hreferenced]
      refine congrArg (fun path => Except.bind path (assembleUrl unicode base)) ?_
      refine formatPath_congr fun name hname => ?_
      rw [lookup_encoded, lookup_encoded, lookup_referencedArgs hname]
    | some message =>
      rw [hrefused hreferenced]
      exact iff_of_false (endpointUrl_ne_refusal unicode base template hall
        (head?_of_firstRefusal hreferenced)) (by simp)
  | some message =>
    rw [hrefused hall]
    cases hreferenced : firstRefusal str (referencedArgs template args) with
    | none =>
      exact iff_of_false (endpointUrl_ne_refusal unicode base template hreferenced
        (head?_of_firstRefusal hall)).symm (by simp)
    | some other =>
      rw [hrefused hreferenced]
      simp

end

end Himmy
