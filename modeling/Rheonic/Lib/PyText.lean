import Rheonic.Lib.Trim

namespace PyText

/-- `str.isspace` for one character. -/
def isSpace (c : Char) : Bool :=
  (9 ≤ c.toNat && c.toNat ≤ 13) || (28 ≤ c.toNat && c.toNat ≤ 32) ||
    c.toNat ∈ [0x85, 0xa0, 0x1680, 0x2028, 0x2029, 0x202f, 0x205f, 0x3000] ||
    (0x2000 ≤ c.toNat && c.toNat ≤ 0x200a)

def stripChars (cs : List Char) : List Char :=
  ((cs.dropWhile isSpace).reverse.dropWhile isSpace).reverse

/-- `str.strip()`. -/
def strip (s : String) : String := String.ofList (stripChars s.toList)

/-- `str.strip(c)` for one character. -/
def stripOf (c : Char) (s : String) : String :=
  String.ofList ((s.toList.dropWhile (· = c)).reverse.dropWhile (· = c)).reverse

/-- `value or default` on an optional string: the empty string counts as missing. -/
def orElse (value : Option String) (default : String) : String :=
  match value with
  | some s => if s = "" then default else s
  | none => default

@[simp] theorem orElse_empty (default : String) : orElse (some "") default = default := rfl

theorem orElse_of_ne {s : String} (h : s ≠ "") (default : String) : orElse (some s) default = s :=
  if_neg h

/-- An optional string that passes a truth test. -/
def truthy (value : Option String) : Option String := value.filter (· ≠ "")

/-- `str.split(sep)` for a one-character separator. -/
def split (sep : Char) : List Char → List (List Char)
  | [] => [[]]
  | c :: cs =>
    if c = sep then [] :: split sep cs
    else match split sep cs with
      | [] => [[c]]
      | w :: ws => (c :: w) :: ws

/-- The line boundaries of `str.splitlines`, a carriage return followed by a newline apart. -/
def isLineBreak (c : Char) : Bool :=
  (10 ≤ c.toNat && c.toNat ≤ 13) || (28 ≤ c.toNat && c.toNat ≤ 30) ||
    c.toNat ∈ [0x85, 0x2028, 0x2029]

/-- `str.splitlines()`. -/
def splitlines : List Char → List (List Char)
  | [] => []
  | '\r' :: '\n' :: cs => [] :: splitlines cs
  | c :: cs =>
    if isLineBreak c then [] :: splitlines cs
    else match splitlines cs with
      | [] => [[c]]
      | w :: ws => (c :: w) :: ws

def digit (c : Char) : ℕ := c.toNat - '0'.toNat

/-- The digits after the first one; a single underscore may stand between two digits. -/
def moreDigits : ℕ → List Char → Option ℕ
  | acc, [] => some acc
  | acc, c :: cs =>
    if c.isDigit then moreDigits (10 * acc + digit c) cs
    else if c = '_' ∧ cs.head?.any Char.isDigit then moreDigits acc cs
    else none

def digits : List Char → Option ℕ
  | [] => none
  | c :: cs => if c.isDigit then moreDigits (digit c) cs else none

/-- The zeros of Unicode 15, each of which its script's other digits follow. -/
def decimalZeros : List ℕ :=
  [0x30, 0x660, 0x6f0, 0x7c0, 0x966, 0x9e6, 0xa66, 0xae6, 0xb66, 0xbe6, 0xc66, 0xce6, 0xd66, 0xde6,
    0xe50, 0xed0, 0xf20, 0x1040, 0x1090, 0x17e0, 0x1810, 0x1946, 0x19d0, 0x1a80, 0x1a90, 0x1b50,
    0x1bb0, 0x1c40, 0x1c50, 0xa620, 0xa8d0, 0xa900, 0xa9d0, 0xa9f0, 0xaa50, 0xabf0, 0xff10, 0x104a0,
    0x10d30, 0x11066, 0x110f0, 0x11136, 0x111d0, 0x112f0, 0x11450, 0x114d0, 0x11650, 0x116c0,
    0x11730, 0x118e0, 0x11950, 0x11c50, 0x11d50, 0x11da0, 0x11f50, 0x16a60, 0x16ac0, 0x16b50,
    0x1d7ce, 0x1d7d8, 0x1d7e2, 0x1d7ec, 0x1d7f6, 0x1e140, 0x1e2f0, 0x1e4f0, 0x1e950, 0x1fbf0]

/-- `unicodedata.decimal(c)`. -/
def decimal (c : Char) : Option ℕ :=
  (decimalZeros.find? fun first => first ≤ c.toNat && c.toNat < first + 10).map (c.toNat - ·)

/-- What `int` reads a character as: any space beyond ASCII as a space, any decimal as its digit. -/
def asciiOf (c : Char) : Char :=
  if c.toNat < 127 then c
  else if isSpace c then ' '
  else ((decimal c).map Nat.digitChar).getD '?'

/-- The spaces of ASCII; the separators from 28 to 31 are none for `int`. -/
def isAsciiSpace (c : Char) : Bool := (9 ≤ c.toNat && c.toNat ≤ 13) || c.toNat = 32

/-- `int(text)`, without a limit on the digits. `none` is the `ValueError`. -/
def parseNumber (s : String) : Option ℤ :=
  match Trim.trim isAsciiSpace (s.toList.map asciiOf) with
  | '-' :: cs => (digits cs).map fun n : ℕ => -(n : ℤ)
  | '+' :: cs => (digits cs).map fun n : ℕ => (n : ℤ)
  | cs => (digits cs).map fun n : ℕ => (n : ℤ)

/-- `sys.int_info.default_max_str_digits`. -/
def maxStrDigits : ℕ := 4300

/-- `int(text)`, which refuses a text of too many digits. -/
def parseInt (s : String) : Option ℤ :=
  if maxStrDigits < (s.toList.map asciiOf).countP Char.isDigit then none else parseNumber s

section Split

variable {sep : Char} {a b : List Char}

theorem split_ne_nil (cs : List Char) : split sep cs ≠ [] := by
  induction cs with
  | nil => simp [split]
  | cons c cs ih =>
    simp only [split]
    split
    · simp
    · split <;> simp

theorem split_of_not_mem (h : sep ∉ b) : split sep b = [b] := by
  induction b with
  | nil => rfl
  | cons c cs ih =>
    rw [List.mem_cons, not_or] at h
    simp [split, ih h.2, Ne.symm h.1]

theorem split_append : split sep (a ++ sep :: b) = split sep a ++ split sep b := by
  induction a with
  | nil => simp [split]
  | cons c cs ih =>
    rw [List.cons_append, split, split, ih]
    split
    · rfl
    · cases h : split sep cs with
      | nil => exact absurd h (split_ne_nil cs)
      | cons w ws => rfl

theorem getLast_split_append (h : sep ∉ b) : (split sep (a ++ sep :: b)).getLast? = some b := by
  rw [split_append, split_of_not_mem h, List.getLast?_append]
  rfl

end Split

theorem splitlines_eq_nil {cs : List Char} : splitlines cs = [] ↔ cs = [] := by
  constructor
  · intro h
    unfold splitlines at h
    split at h
    · rfl
    · simp at h
    · split at h
      · simp at h
      · split at h <;> simp at h
  · rintro rfl
    rfl

theorem moreDigits_of_digits {cs : List Char} (h : ∀ c ∈ cs, c.isDigit = true) (acc : ℕ) :
    moreDigits acc cs = some (Nat.ofDigitChars 10 cs acc) := by
  induction cs generalizing acc with
  | nil => rfl
  | cons c cs ih =>
    have hc := h c List.mem_cons_self
    rw [Nat.ofDigitChars_cons, ← ih fun d hd => h d (List.mem_cons_of_mem _ hd), moreDigits,
      if_pos hc, digit]

theorem digits_of_digits {cs : List Char} (h : ∀ c ∈ cs, c.isDigit = true) (hne : cs ≠ []) :
    digits cs = some (Nat.ofDigitChars 10 cs 0) := by
  cases cs with
  | nil => exact absurd rfl hne
  | cons c cs =>
    rw [digits, if_pos (h c List.mem_cons_self),
      moreDigits_of_digits fun d hd => h d (List.mem_cons_of_mem _ hd), Nat.ofDigitChars_cons]
    simp [digit]

theorem stripChars_of_ends {cs : List Char} (h : ∀ c ∈ cs.head?, isSpace c = false)
    (h' : ∀ c ∈ cs.getLast?, isSpace c = false) : stripChars cs = cs :=
  Trim.trim_eq_self.mpr ⟨h, h'⟩

theorem head_dropWhile {cs : List Char} : ∀ c ∈ (cs.dropWhile isSpace).head?, isSpace c = false := by
  intro c hc
  have h := List.head?_dropWhile_not isSpace cs
  rw [Option.mem_def.mp hc] at h
  simpa using h

theorem stripChars_stripChars (cs : List Char) : stripChars (stripChars cs) = stripChars cs := by
  apply stripChars_of_ends
  · intro c hc
    rw [stripChars, List.head?_reverse] at hc
    have hsuffix := List.dropWhile_suffix (l := (cs.dropWhile isSpace).reverse) isSpace
    obtain ⟨pre, hpre⟩ := hsuffix
    have hlast : (cs.dropWhile isSpace).reverse.getLast? = some c := by
      rw [← hpre, List.getLast?_append, Option.mem_def.mp hc]
      rfl
    rw [List.getLast?_reverse] at hlast
    exact head_dropWhile c hlast
  · intro c hc
    rw [stripChars, List.getLast?_reverse] at hc
    exact head_dropWhile c hc

theorem stripChars_eq_nil {cs : List Char} : stripChars cs = [] ↔ ∀ c ∈ cs, isSpace c = true :=
  Trim.trim_eq_nil

theorem strip_ne_empty {s : String} {c : Char} (hc : c ∈ s.toList) (hspace : isSpace c = false) :
    strip s ≠ "" := by
  intro hblank
  have hnil : stripChars s.toList = [] := String.ofList_injective hblank
  rw [stripChars_eq_nil.mp hnil c hc] at hspace
  exact absurd hspace (by decide)

theorem strip_strip (s : String) : strip (strip s) = strip s := by
  rw [strip, strip, String.toList_ofList, stripChars_stripChars]

theorem digits_toDigits (n : ℕ) : digits (Nat.toDigits 10 n) = some n := by
  rw [digits_of_digits (fun c hc => Nat.isDigit_of_mem_toDigits (by decide) le_rfl hc)
    Nat.toDigits_ne_nil, Nat.ofDigitChars_ten_toDigits]

theorem isDigit_of_mem_repr {n : ℕ} {c : Char} (h : c ∈ n.repr.toList) : c.isDigit = true := by
  rw [Nat.repr, String.toList_ofList] at h
  exact Nat.isDigit_of_mem_toDigits (by decide) le_rfl h

theorem isAsciiSpace_of_isDigit {c : Char} (h : c.isDigit = true) : isAsciiSpace c = false := by
  have h' : 48 ≤ c.toNat ∧ c.toNat ≤ 57 := Char.isDigit_iff_toNat.mp h
  simp [isAsciiSpace]
  omega

theorem map_asciiOf {cs : List Char} (h : ∀ c ∈ cs, c.toNat < 127) : cs.map asciiOf = cs := by
  conv_rhs => rw [← List.map_id cs]
  exact List.map_congr_left fun c hc => if_pos (h c hc)

theorem lt_of_isDigit {c : Char} (h : c.isDigit = true) : c.toNat < 127 := by
  have h' : 48 ≤ c.toNat ∧ c.toNat ≤ 57 := Char.isDigit_iff_toNat.mp h
  omega

theorem parseNumber_of_digits {s : String} {n : ℕ} (h : ∀ c ∈ s.toList, c.isDigit = true)
    (hs : digits s.toList = some n) : parseNumber s = some (n : ℤ) := by
  have hends : Trim.trim isAsciiSpace s.toList = s.toList :=
    Trim.trim_eq_self.mpr ⟨fun c hc => isAsciiSpace_of_isDigit (h c (List.mem_of_mem_head? hc)),
      fun c hc => isAsciiSpace_of_isDigit (h c (List.mem_of_mem_getLast? hc))⟩
  rw [parseNumber, map_asciiOf fun c hc => lt_of_isDigit (h c hc), hends]
  split
  · next hm => exact absurd (h '-' (by simp [hm])) (by decide)
  · next hm => exact absurd (h '+' (by simp [hm])) (by decide)
  · simp [hs]

theorem parseNumber_of_blank {s : String} (h : strip s = "") : parseNumber s = none := by
  have hspaces : ∀ c ∈ s.toList.map asciiOf, isSpace c = true := by
    intro c hc
    obtain ⟨b, hb, rfl⟩ := List.mem_map.mp hc
    have hspace := stripChars_eq_nil.mp (String.ofList_injective h) b hb
    by_cases hascii : b.toNat < 127
    · rw [asciiOf, if_pos hascii]
      exact hspace
    · rw [asciiOf, if_neg hascii, if_pos hspace]
      rfl
  have htrimmed : ∀ c ∈ Trim.trim isAsciiSpace (s.toList.map asciiOf), isSpace c = true := by
    intro c hc
    have hdropped := (List.dropWhile_sublist _).subset (List.mem_reverse.mp hc)
    exact hspaces c ((List.dropWhile_sublist _).subset (List.mem_reverse.mp hdropped))
  unfold parseNumber
  generalize Trim.trim isAsciiSpace (s.toList.map asciiOf) = cs at htrimmed
  cases cs with
  | nil => rfl
  | cons c cs =>
    have hspace := htrimmed c List.mem_cons_self
    have hdigit : ¬c.isDigit = true := by
      intro hdigit
      have hrange : 48 ≤ c.toNat ∧ c.toNat ≤ 57 := Char.isDigit_iff_toNat.mp hdigit
      simp [isSpace] at hspace
      omega
    split
    · next hm => exact absurd ((List.cons.inj hm).1 ▸ hspace) (by decide)
    · next hm => exact absurd ((List.cons.inj hm).1 ▸ hspace) (by decide)
    · rw [digits, if_neg hdigit]
      rfl

/-- `int(str(n)) = n`, where `str` writes all digits. -/
theorem parseNumber_toString (n : ℤ) : parseNumber (toString n) = some n := by
  change parseNumber n.repr = some n
  rw [Int.repr_eq_if]
  split
  · next hn =>
    rw [parseNumber_of_digits (fun c hc => isDigit_of_mem_repr hc)
      (by rw [Nat.repr, String.toList_ofList, digits_toDigits]), Int.toNat_of_nonneg hn]
  · next hn =>
    have hdigits : ∀ c ∈ (-n).toNat.repr.toList, c.isDigit = true :=
      fun c hc => isDigit_of_mem_repr hc
    have hne : (-n).toNat.repr.toList ≠ [] := by
      rw [Nat.repr, String.toList_ofList]
      exact Nat.toDigits_ne_nil
    have hascii : ('-' :: (-n).toNat.repr.toList).map asciiOf = '-' :: (-n).toNat.repr.toList :=
      map_asciiOf (List.forall_mem_cons.mpr ⟨by decide, fun c hc => lt_of_isDigit (hdigits c hc)⟩)
    have hends : Trim.trim isAsciiSpace ('-' :: (-n).toNat.repr.toList) =
        '-' :: (-n).toNat.repr.toList := by
      refine Trim.trim_eq_self.mpr ⟨by simp [isAsciiSpace], fun c hc => ?_⟩
      rw [List.getLast?_cons_of_ne_nil hne] at hc
      exact isAsciiSpace_of_isDigit (hdigits c (List.mem_of_mem_getLast? hc))
    have hlist : ("-" ++ (-n).toNat.repr).toList = '-' :: (-n).toNat.repr.toList := by
      rw [String.toList_append]; rfl
    rw [parseNumber, hlist, hascii, hends]
    change (digits (-n).toNat.repr.toList).map (fun n : ℕ => -(n : ℤ)) = some n
    rw [Nat.repr, String.toList_ofList, digits_toDigits, Option.map_some]
    congr 1
    omega

end PyText
