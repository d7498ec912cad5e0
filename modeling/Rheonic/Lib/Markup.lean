import Mathlib.Data.List.Basic
import Mathlib.Data.List.TakeDrop
import Mathlib.Tactic.Common

namespace Markup

/-- What a page is read as: the characters of its text, entities not yet decoded, and its tags. -/
inductive Token
  | char (c : Char)
  | tag (content : List Char)
  deriving DecidableEq, Repr

/-- Where the reader stands: in text, or in a tag and there perhaps within quotes. -/
inductive Mode
  | text
  | tag (quote : Option Char) (content : List Char)
  deriving DecidableEq, Repr

/-- The part of a tag that has been read. -/
def Mode.content : Mode → List Char
  | text => []
  | tag _ content => content

def step : Mode → Char → Option Token × Mode
  | .text, c => if c = '<' then (none, .tag none []) else (some (.char c), .text)
  | .tag none content, c =>
    if c = '>' then (some (.tag content), .text)
    else (none, .tag (if c = '\"' ∨ c = '\x27' then some c else none) (content ++ [c]))
  | .tag (some quote) content, c =>
    (none, .tag (if c = quote then none else some quote) (content ++ [c]))

def scan : Mode → List Char → List Token × Mode
  | mode, [] => ([], mode)
  | mode, c :: l =>
    ((step mode c).1.toList ++ (scan (step mode c).2 l).1, (scan (step mode c).2 l).2)

def read (l : List Char) : List Token := (scan .text l).1

/-- The text is read as these tokens, with no tag left open. -/
def Reads (l : List Char) (tokens : List Token) : Prop := scan .text l = (tokens, .text)

section Scan

variable {mode : Mode} {a b l : List Char} {s t : List Token} {content : List Char}

theorem scan_append (mode : Mode) (a b : List Char) : scan mode (a ++ b) =
    ((scan mode a).1 ++ (scan (scan mode a).2 b).1, (scan (scan mode a).2 b).2) := by
  induction a generalizing mode with
  | nil => rfl
  | cons c a ih =>
    rw [List.cons_append, scan, ih, scan]
    dsimp only
    rw [List.append_assoc]

theorem Reads.read_eq (h : Reads l t) : read l = t := congrArg Prod.fst h

theorem Reads.append (ha : Reads a s) (hb : Reads b t) : Reads (a ++ b) (s ++ t) := by
  unfold Reads at *
  rw [scan_append, ha]
  dsimp only
  rw [hb]

theorem reads_nil : Reads [] [] := rfl

theorem reads_of_closed (h : (scan .text l).2 = .text) : Reads l (read l) := Prod.ext rfl h

theorem toList_append_eq {text text' : String} (ha : text.toList = a) (hb : text'.toList = b) :
    (text ++ text').toList = a ++ b := by
  rw [String.toList_append, ha, hb]

theorem reads_text (h : '<' ∉ l) : Reads l (l.map .char) := by
  induction l with
  | nil => exact reads_nil
  | cons c l ih =>
    have hc : c ≠ '<' := fun hc => h (hc ▸ List.mem_cons_self)
    have hrest := ih fun hl => h (List.mem_cons_of_mem c hl)
    have hstep : step .text c = (some (.char c), .text) := if_neg hc
    unfold Reads at *
    rw [scan, hstep]
    dsimp only
    rw [hrest]
    rfl

theorem scan_quoted {quote : Char} (h : quote ∉ l) :
    scan (.tag (some quote) content) l = ([], .tag (some quote) (content ++ l)) := by
  induction l generalizing content with
  | nil => rw [List.append_nil]; rfl
  | cons c l ih =>
    have hc : c ≠ quote := fun hc => h (hc ▸ List.mem_cons_self)
    have hstep : step (.tag (some quote) content) c =
        (none, .tag (some quote) (content ++ [c])) := by
      rw [step, if_neg hc]
    rw [scan, hstep]
    dsimp only
    rw [ih fun hl => h (List.mem_cons_of_mem c hl), List.append_assoc]
    rfl

/-- The rest of a tag, up to the sign that ends it. -/
def endsTag : Option Char → List Char → Bool
  | _, [] => false
  | none, c :: l =>
    if c = '>' then l.isEmpty else endsTag (if c = '\"' ∨ c = '\x27' then some c else none) l
  | some quote, c :: l => endsTag (if c = quote then none else some quote) l

theorem scan_endsTag {quote : Option Char} (h : endsTag quote l = true) :
    scan (.tag quote content) l = ([.tag (content ++ l.dropLast)], .text) := by
  induction l generalizing quote content with
  | nil => exact absurd h Bool.false_ne_true
  | cons c l ih =>
    have hgoes {next : Option Char} (hstep : step (.tag quote content) c =
        (none, .tag next (content ++ [c]))) (hrest : endsTag next l = true) :
        scan (.tag quote content) (c :: l) = ([.tag (content ++ (c :: l).dropLast)], .text) := by
      have hne : l ≠ [] := by
        rintro rfl
        exact Bool.false_ne_true hrest
      rw [scan, hstep]
      dsimp only
      rw [ih hrest, List.dropLast_cons_of_ne_nil hne, List.append_assoc]
      rfl
    cases quote with
    | some quote => exact hgoes rfl h
    | none =>
      rw [endsTag] at h
      by_cases hc : c = '>'
      · rw [if_pos hc, List.isEmpty_iff] at h
        subst h
        have hstep : step (.tag none content) c = (some (.tag content), .text) := if_pos hc
        rw [scan, hstep, List.dropLast_singleton, List.append_nil]
        rfl
      · rw [if_neg hc] at h
        exact hgoes (if_neg hc) h

/-- A tag around an attribute's value that does not end its quotes. -/
theorem reads_attribute {quote : Char} {value after : List Char}
    (hbefore : scan .text a = (s, .tag (some quote) content)) (hvalue : quote ∉ value)
    (hafter : endsTag (some quote) after = true) :
    Reads (a ++ value ++ after) (s ++ [.tag (content ++ value ++ after.dropLast)]) := by
  unfold Reads
  rw [scan_append, scan_append, hbefore]
  dsimp only
  rw [scan_quoted hvalue]
  dsimp only
  rw [scan_endsTag hafter, List.append_nil]

end Scan

/-- `html.escape`, for one character. -/
def escapeChar (c : Char) : List Char :=
  if c = '&' then ['&', 'a', 'm', 'p', ';']
  else if c = '<' then ['&', 'l', 't', ';']
  else if c = '>' then ['&', 'g', 't', ';']
  else if c = '\"' then ['&', 'q', 'u', 'o', 't', ';']
  else if c = '\x27' then ['&', '#', 'x', '2', '7', ';']
  else [c]

def escape (l : List Char) : List Char := l.flatMap escapeChar

/-- Each newline becomes a tag. -/
def breaks (l : List Char) : List Char :=
  l.flatMap fun c => if c = '\n' then ['<', 'b', 'r', '/', '>'] else [c]

def digitValue (c : Char) : ℕ :=
  if '0' ≤ c ∧ c ≤ '9' then c.toNat - '0'.toNat
  else if 'a' ≤ c ∧ c ≤ 'f' then c.toNat - 'a'.toNat + 10
  else if 'A' ≤ c ∧ c ≤ 'F' then c.toNat - 'A'.toNat + 10
  else 16

def numeral (base : ℕ) (digits : List Char) : Option Char :=
  if digits ≠ [] ∧ digits.all (digitValue · < base) then
    some (Char.ofNat (digits.foldl (fun n c => n * base + digitValue c) 0))
  else none

/-- The character that an entity stands for: the predefined names, and the numbers. -/
def reference : List Char → Option Char
  | ['a', 'm', 'p'] => some '&'
  | ['l', 't'] => some '<'
  | ['g', 't'] => some '>'
  | ['q', 'u', 'o', 't'] => some '\"'
  | ['a', 'p', 'o', 's'] => some '\x27'
  | '#' :: 'x' :: digits => numeral 16 digits
  | '#' :: digits => numeral 10 digits
  | _ => none

/-- Entities decoded, behind the name of one that has been begun; what is none is left as it is. -/
def decodeFrom : Option (List Char) → List Char → List Char
  | none, [] => []
  | some name, [] => '&' :: name
  | none, c :: l => if c = '&' then decodeFrom (some []) l else c :: decodeFrom none l
  | some name, c :: l =>
    if c = ';' then
      match reference name with
      | some d => d :: decodeFrom none l
      | none => '&' :: name ++ ';' :: decodeFrom none l
    else if c = '&' then '&' :: name ++ decodeFrom (some []) l
    else decodeFrom (some (name ++ [c])) l

def decode (l : List Char) : List Char := decodeFrom none l

section Escape

variable {c d : Char} {l rest : List Char}

theorem escape_cons (c : Char) (l : List Char) : escape (c :: l) = escapeChar c ++ escape l := rfl

theorem ne_of_all (hl : l.all (fun d => d ≠ '<' ∧ d ≠ '>' ∧ d ≠ '\"' ∧ d ≠ '\x27') = true)
    (h : d ∈ l) : d ≠ '<' ∧ d ≠ '>' ∧ d ≠ '\"' ∧ d ≠ '\x27' :=
  of_decide_eq_true (List.all_eq_true.mp hl d h)

theorem mem_escapeChar (h : d ∈ escapeChar c) : d ≠ '<' ∧ d ≠ '>' ∧ d ≠ '\"' ∧ d ≠ '\x27' := by
  unfold escapeChar at h
  split_ifs at h with hamp hlt hgt hquot hapos
  · exact ne_of_all (by decide) h
  · exact ne_of_all (by decide) h
  · exact ne_of_all (by decide) h
  · exact ne_of_all (by decide) h
  · exact ne_of_all (by decide) h
  · rw [List.mem_singleton.mp h]
    exact ⟨hlt, hgt, hquot, hapos⟩

theorem mem_escape (h : d ∈ escape l) : d ≠ '<' ∧ d ≠ '>' ∧ d ≠ '\"' ∧ d ≠ '\x27' := by
  obtain ⟨c, -, hd⟩ := List.mem_flatMap.mp h
  exact mem_escapeChar hd

theorem escapeChar_ne_nil (c : Char) : escapeChar c ≠ [] := by
  unfold escapeChar
  split_ifs <;> exact List.cons_ne_nil _ _

theorem escape_eq_nil : escape l = [] ↔ l = [] := by
  cases l with
  | nil => exact ⟨fun _ => rfl, fun _ => rfl⟩
  | cons c l =>
    rw [escape_cons, List.append_eq_nil_iff]
    exact iff_of_false (fun h => escapeChar_ne_nil c h.1) (List.cons_ne_nil c l)

theorem decodeFrom_escapeChar (c : Char) (rest : List Char) :
    decodeFrom none (escapeChar c ++ rest) = c :: decodeFrom none rest := by
  unfold escapeChar
  split_ifs with hamp hlt hgt hquot hapos
  · rw [hamp]; rfl
  · rw [hlt]; rfl
  · rw [hgt]; rfl
  · rw [hquot]; rfl
  · rw [hapos]; rfl
  · rw [List.singleton_append, decodeFrom, if_neg hamp]

theorem decode_escape (l : List Char) : decode (escape l) = l := by
  induction l with
  | nil => rfl
  | cons c l ih =>
    rw [decode, escape_cons, decodeFrom_escapeChar]
    exact congrArg (c :: ·) ih

end Escape

/-- The tag that a newline becomes. -/
def lineBreak : Token := .tag ['b', 'r', '/']

/-- What is read of a character that has been escaped. -/
def shown (c : Char) : List Token :=
  if c = '\n' then [lineBreak] else (escapeChar c).map .char

/-- The tags alone. -/
def tags (tokens : List Token) : List Token := tokens.filter fun
  | .tag _ => true
  | .char _ => false

/-- The text between the tags, line breaks being newlines and entities decoded. -/
def shownText (tokens : List Token) : List Char := decode (tokens.flatMap fun
  | .char c => [c]
  | .tag content => if content = ['b', 'r', '/'] then ['\n'] else [])

section Shown

variable {l : List Char} {s t : List Token}

theorem reads_escape (l : List Char) : Reads (escape l) ((escape l).map .char) :=
  reads_text fun h => (mem_escape h).1 rfl

theorem breaks_append (a b : List Char) : breaks (a ++ b) = breaks a ++ breaks b :=
  List.flatMap_append

theorem breaks_of_not_mem (h : '\n' ∉ l) : breaks l = l := by
  induction l with
  | nil => rfl
  | cons c l ih =>
    have hc : c ≠ '\n' := fun hc => h (hc ▸ List.mem_cons_self)
    have hrest := ih fun hl => h (List.mem_cons_of_mem c hl)
    rw [breaks] at hrest ⊢
    rw [List.flatMap_cons, if_neg hc, hrest]
    rfl

theorem newline_not_mem_escapeChar {c : Char} (hc : c ≠ '\n') : '\n' ∉ escapeChar c := by
  unfold escapeChar
  split_ifs with hamp hlt hgt hquot hapos
  · decide
  · decide
  · decide
  · decide
  · decide
  · exact fun h => hc (List.mem_singleton.mp h).symm

/-- Escaped first and then broken into lines: nothing but line breaks is read as a tag. -/
theorem reads_breaks_escape (l : List Char) : Reads (breaks (escape l)) (l.flatMap shown) := by
  induction l with
  | nil => exact reads_nil
  | cons c l ih =>
    rw [escape_cons, breaks_append, List.flatMap_cons]
    apply Reads.append ?_ ih
    by_cases hc : c = '\n'
    · rw [hc]
      rfl
    · rw [shown, if_neg hc, breaks_of_not_mem (newline_not_mem_escapeChar hc)]
      exact reads_text fun h => (mem_escapeChar h).1 rfl

theorem shownText_chars (l : List Char) : shownText ((escape l).map .char) = l := by
  have htext : ((escape l).map Token.char).flatMap (fun
      | .char c => [c]
      | .tag content => if content = ['b', 'r', '/'] then ['\n'] else []) = escape l := by
    rw [List.flatMap_map]
    exact List.flatMap_singleton' _
  rw [shownText, htext, decode_escape]

theorem shownText_shown (l : List Char) : shownText (l.flatMap shown) = l := by
  have htext : (l.flatMap shown).flatMap (fun
      | .char c => [c]
      | .tag content => if content = ['b', 'r', '/'] then ['\n'] else []) = escape l := by
    induction l with
    | nil => rfl
    | cons c l ih =>
      rw [List.flatMap_cons, List.flatMap_append, ih, escape_cons]
      congr 1
      by_cases hc : c = '\n'
      · rw [hc]
        rfl
      · rw [shown, if_neg hc, List.flatMap_map]
        exact List.flatMap_singleton' _
  rw [shownText, htext, decode_escape]

theorem tags_append (s t : List Token) : tags (s ++ t) = tags s ++ tags t := List.filter_append s t

theorem tags_chars (l : List Char) : tags (l.map .char) = [] := by
  rw [tags, List.filter_eq_nil_iff]
  intro token htoken
  obtain ⟨c, -, rfl⟩ := List.mem_map.mp htoken
  exact Bool.false_ne_true

theorem tags_shown (l : List Char) :
    tags (l.flatMap shown) = List.replicate (l.count '\n') lineBreak := by
  induction l with
  | nil => rfl
  | cons c l ih =>
    rw [List.flatMap_cons, tags_append, ih, List.count_cons]
    by_cases hc : c = '\n'
    · rw [hc, shown, if_pos rfl, if_pos (beq_self_eq_true _), List.replicate_succ]
      rfl
    · rw [shown, if_neg hc, tags_chars, if_neg (fun h => hc (eq_of_beq h))]
      rfl

end Shown

/-- The name of a tag, up to its attributes. -/
def tagName (content : List Char) : List Char := content.takeWhile (· ≠ ' ')

def opens (name : List Char) : Token → Bool
  | .tag content => tagName content = name
  | .char _ => false

def closes (name : List Char) : Token → Bool
  | .tag content => content = '/' :: name
  | .char _ => false

/-- What stands in each element of a name, up to the first tag that closes it. -/
def elements (name : List Char) : List Token → List (List Token)
  | [] => []
  | token :: tokens =>
    if opens name token then tokens.takeWhile (!closes name ·) :: elements name tokens
    else elements name tokens

/-- Every element of the name is closed. -/
def balanced (name : List Char) : List Token → Bool
  | [] => true
  | token :: tokens => (!opens name token || tokens.any (closes name)) && balanced name tokens

/-- The token neither opens nor closes an element of the name. -/
def inert (name : List Char) (token : Token) : Bool := !opens name token && !closes name token

section Elements

variable {name : List Char} {token : Token} {s t : List Token}

theorem elements_cons_of_inert (h : inert name token = true) :
    elements name (token :: t) = elements name t := by
  rw [inert, Bool.and_eq_true, Bool.not_eq_true'] at h
  rw [elements, if_neg (Bool.eq_false_iff.mp h.1)]

theorem balanced_cons_of_inert (h : inert name token = true) :
    balanced name (token :: t) = balanced name t := by
  rw [inert, Bool.and_eq_true, Bool.not_eq_true'] at h
  rw [balanced, h.1]
  rfl

theorem elements_of_inert (h : ∀ token ∈ s, inert name token = true) :
    elements name (s ++ t) = elements name t := by
  induction s with
  | nil => rfl
  | cons token s ih =>
    rw [List.cons_append, elements_cons_of_inert (h token List.mem_cons_self)]
    exact ih fun token' h' => h token' (List.mem_cons_of_mem token h')

theorem takeWhile_append_of_any (h : s.any (closes name) = true) :
    (s ++ t).takeWhile (!closes name ·) = s.takeWhile (!closes name ·) := by
  induction s with
  | nil => exact absurd h Bool.false_ne_true
  | cons token s ih =>
    rw [List.cons_append, List.takeWhile_cons, List.takeWhile_cons]
    cases hclose : closes name token with
    | true => rfl
    | false =>
      rw [List.any_cons, hclose, Bool.false_or] at h
      rw [ih h]

theorem elements_append (h : balanced name s = true) :
    elements name (s ++ t) = elements name s ++ elements name t := by
  induction s with
  | nil => rfl
  | cons token s ih =>
    rw [balanced, Bool.and_eq_true] at h
    rw [List.cons_append, elements, elements, ih h.2]
    by_cases hopen : opens name token = true
    · rw [hopen, Bool.not_true, Bool.false_or] at h
      rw [if_pos hopen, if_pos hopen, takeWhile_append_of_any h.1]
      rfl
    · rw [if_neg hopen, if_neg hopen]

theorem elements_element {opening closing : Token} (hopening : opens name opening = true)
    (hclosing : closes name closing = true) (hbody : ∀ token ∈ s, inert name token = true) :
    elements name (opening :: (s ++ closing :: t)) = s :: elements name (closing :: t) := by
  have hbefore : ∀ token ∈ s, (!closes name token) = true := by
    intro token htoken
    have hinert := hbody token htoken
    rw [inert, Bool.and_eq_true] at hinert
    exact hinert.2
  have htake : (s ++ closing :: t).takeWhile (!closes name ·) = s := by
    rw [List.takeWhile_append_of_pos hbefore, List.takeWhile_cons, hclosing, Bool.not_true]
    exact List.append_nil s
  rw [elements, if_pos hopening, htake, elements_of_inert hbody]

/-- A token that counts for nothing where it stands makes no difference to how many elements there
are, and to whether they are closed. -/
theorem length_elements_insert (h : inert name token = true) :
    (elements name (s ++ token :: t)).length = (elements name (s ++ t)).length := by
  induction s with
  | nil => rw [List.nil_append, elements_cons_of_inert h, List.nil_append]
  | cons first s ih =>
    rw [List.cons_append, List.cons_append, elements, elements]
    split
    · rw [List.length_cons, List.length_cons, ih]
    · exact ih

theorem balanced_insert (h : inert name token = true) :
    balanced name (s ++ token :: t) = balanced name (s ++ t) := by
  have hclose : closes name token = false := by
    rw [inert, Bool.and_eq_true, Bool.not_eq_true', Bool.not_eq_true'] at h
    exact h.2
  induction s with
  | nil => exact balanced_cons_of_inert h
  | cons first s ih =>
    rw [List.cons_append, List.cons_append, balanced, balanced, ih, List.any_append,
      List.any_append, List.any_cons, hclose, Bool.false_or]

theorem inert_char (c : Char) : inert name (.char c) = true := rfl

theorem inert_chars (l : List Char) : ∀ token ∈ l.map Token.char, inert name token = true := by
  intro token htoken
  obtain ⟨c, -, rfl⟩ := List.mem_map.mp htoken
  exact inert_char c

theorem inert_shown (hbreak : inert name lineBreak = true) (l : List Char) :
    ∀ token ∈ l.flatMap shown, inert name token = true := by
  intro token htoken
  obtain ⟨c, -, hc⟩ := List.mem_flatMap.mp htoken
  unfold shown at hc
  split at hc
  · rw [List.mem_singleton.mp hc]
    exact hbreak
  · exact inert_chars _ token hc

end Elements

end Markup
