import Rheonic.Lib.Json

namespace Json

variable {σ : Type}

section Strings

def hexValue (c : Char) : Option ℕ :=
  if c.isDigit then some (c.toNat - '0'.toNat)
  else if 'a' ≤ c ∧ c ≤ 'f' then some (c.toNat - 'a'.toNat + 10)
  else if 'A' ≤ c ∧ c ≤ 'F' then some (c.toNat - 'A'.toNat + 10)
  else none

/-- The character of a four-digit escape. -/
def hexChar (a b c d : Char) : Option Char :=
  match hexValue a, hexValue b, hexValue c, hexValue d with
  | some a, some b, some c, some d => some (Char.ofNat (((a * 16 + b) * 16 + c) * 16 + d))
  | _, _, _, _ => none

/-- The character of an escape by one letter. -/
def shortEscape : Char → Option Char
  | '"' => some '"'
  | '\\' => some '\\'
  | '/' => some '/'
  | 'n' => some '\n'
  | 'r' => some '\r'
  | 't' => some '\t'
  | 'f' => some '\x0c'
  | 'b' => some '\x08'
  | _ => none

/-- The characters of a string up to the closing quote, and what follows it. -/
def readChars : List Char → Option (List Char × List Char)
  | [] => none
  | '"' :: rest => some ([], rest)
  | '\\' :: 'u' :: a :: b :: c :: d :: rest =>
    (hexChar a b c d).bind fun e => (readChars rest).map fun r => (e :: r.1, r.2)
  | '\\' :: code :: rest =>
    (shortEscape code).bind fun e => (readChars rest).map fun r => (e :: r.1, r.2)
  | c :: rest => (readChars rest).map fun r => (c :: r.1, r.2)

/-- A string behind its opening quote. -/
def readString (cs : List Char) : Option (String × List Char) :=
  (readChars cs).map fun r => (String.ofList r.1, r.2)

theorem escapeCode_reads : ∀ c ∈ specials,
    (∃ code, code ≠ 'u' ∧ escapeCode c = [code] ∧ shortEscape code = some c) ∨
      ∃ x y, escapeCode c = ['u', '0', '0', x, y] ∧ hexChar '0' '0' x y = some c := by
  have hall : (specials.all fun c =>
      ((escapeCode c).any fun code =>
        code != 'u' && escapeCode c == [code] && shortEscape code == some c) ||
      ((escapeCode c).any fun x => (escapeCode c).any fun y =>
        escapeCode c == ['u', '0', '0', x, y] && hexChar '0' '0' x y == some c)) = true := by
    decide +kernel
  intro c hc
  have hcode := List.all_eq_true.mp hall c hc
  simp only [Bool.or_eq_true, List.any_eq_true, Bool.and_eq_true, bne_iff_ne, beq_iff_eq] at hcode
  rcases hcode with ⟨code, _, hshort⟩ | ⟨x, _, y, _, hlong⟩
  · exact .inl ⟨code, hshort.1.1, hshort.1.2, hshort.2⟩
  · exact .inr ⟨x, y, hlong⟩

theorem readChars_escape (c : Char) (rest : List Char) :
    readChars (escape c ++ rest) = (readChars rest).map fun r => (c :: r.1, r.2) := by
  unfold escape
  by_cases hc : c ∈ specials
  · rw [if_pos hc]
    rcases escapeCode_reads c hc with ⟨code, hcode, heq, hread⟩ | ⟨x, y, heq, hread⟩
    · rw [heq]
      show readChars ('\\' :: code :: rest) = _
      rw [readChars, hread, Option.bind_some]
      intro a b c d rest hu _
      exact hcode hu
    · rw [heq]
      show readChars ('\\' :: 'u' :: '0' :: '0' :: x :: y :: rest) = _
      rw [readChars, hread, Option.bind_some]
  · rw [if_neg hc]
    have hquote : c ≠ '"' := by
      rintro rfl
      exact hc (by decide)
    have hbackslash : c ≠ '\\' := by
      rintro rfl
      exact hc (by decide)
    show readChars (c :: rest) = _
    rw [readChars]
    · exact fun h => hquote h
    · intro a b c' d rest' h _
      exact hbackslash h
    · intro code rest' h _
      exact hbackslash h

theorem readChars_quoted (cs rest : List Char) :
    readChars (cs.flatMap escape ++ '"' :: rest) = some (cs, rest) := by
  induction cs with
  | nil => rfl
  | cons c cs ih =>
    rw [List.flatMap_cons, List.append_assoc, readChars_escape, ih]
    rfl

theorem readString_quoted (s : String) (rest : List Char) :
    readString ((quoted s).tail ++ rest) = some (s, rest) := by
  have htail : (quoted s).tail ++ rest = s.toList.flatMap escape ++ '"' :: rest := by
    simp [quoted]
  rw [readString, htail, readChars_quoted, Option.map_some, String.ofList_toList]

end Strings

section Text

variable (text : σ → List Char)

mutual

/-- The compact text of a value, with the members of every object in their own order. -/
def compact : Json σ → List Char
  | .scalar v => text v
  | .string s => quoted s
  | .array items => '[' :: (commaSeparated (compactItems items) ++ [']'])
  | .object members => '{' :: (commaSeparated (compactMembers members) ++ ['}'])

def compactItems : List (Json σ) → List (List Char)
  | [] => []
  | item :: items => compact item :: compactItems items

def compactMembers : List (String × Json σ) → List (List Char)
  | [] => []
  | (name, value) :: members => (quoted name ++ ':' :: compact value) :: compactMembers members

end

end Text

section Reader

variable (read : List Char → Option σ)

/-- A word that is no string, array or object goes up to the next delimiter. -/
def inWord (c : Char) : Bool := c ∉ ['"', '[', '{', ',', ']', '}']

mutual

/-- A value and what follows it, for a text without spaces between its tokens; the number bounds
the depth of the recursion. -/
def readValue : ℕ → List Char → Option (Json σ × List Char)
  | 0, _ => none
  | n + 1, cs =>
    match cs with
    | '"' :: rest => (readString rest).map fun r => (.string r.1, r.2)
    | '[' :: ']' :: rest => some (.array [], rest)
    | '[' :: rest => (readItems n rest).map fun r => (.array r.1, r.2)
    | '{' :: '}' :: rest => some (.object [], rest)
    | '{' :: rest => (readMembers n rest).map fun r => (.object r.1, r.2)
    | cs => (read (cs.takeWhile inWord)).map fun v => (.scalar v, cs.dropWhile inWord)

/-- Items up to the closing bracket, one at least. -/
def readItems : ℕ → List Char → Option (List (Json σ) × List Char)
  | 0, _ => none
  | n + 1, cs =>
    match readValue n cs with
    | some (item, ',' :: rest) => (readItems n rest).map fun r => (item :: r.1, r.2)
    | some (item, ']' :: rest) => some ([item], rest)
    | _ => none

def readMembers : ℕ → List Char → Option (List (String × Json σ) × List Char)
  | 0, _ => none
  | n + 1, cs =>
    match cs with
    | '"' :: cs =>
      match readString cs with
      | some (name, ':' :: cs) =>
        match readValue n cs with
        | some (value, ',' :: rest) => (readMembers n rest).map fun r => ((name, value) :: r.1, r.2)
        | some (value, '}' :: rest) => some ([(name, value)], rest)
        | _ => none
      | _ => none
    | _ => none

end

/-- The value of a whole text. -/
def parse (cs : List Char) : Option (Json σ) :=
  match readValue read (cs.length + 1) cs with
  | some (value, []) => some value
  | _ => none

end Reader

/-- Literals and numbers are read back from their texts, which are words. -/
structure Readable (text : σ → List Char) (read : List Char → Option σ) : Prop where
  read_text : ∀ v, read (text v) = some v
  ne_nil : ∀ v, text v ≠ []
  inWord : ∀ v, ∀ c ∈ text v, inWord c = true

section RoundTrip

variable {text : σ → List Char} {read : List Char → Option σ} {n : ℕ} {rest : List Char}

theorem compactItems_eq (items : List (Json σ)) :
    compactItems text items = items.map (compact text) := by
  induction items with
  | nil => rfl
  | cons item items ih => rw [compactItems, ih, List.map_cons]

/-- The compact text of a member. -/
def compactMember (text : σ → List Char) (member : String × Json σ) : List Char :=
  quoted member.1 ++ ':' :: compact text member.2

theorem compactMembers_eq (members : List (String × Json σ)) :
    compactMembers text members = members.map (compactMember text) := by
  induction members with
  | nil => rfl
  | cons member members ih => rw [compactMembers, ih, List.map_cons, compactMember]

theorem span_append {p : Char → Bool} {cs rest : List Char} (hcs : ∀ c ∈ cs, p c = true)
    (hrest : ∀ c ∈ rest.head?, p c = false) :
    (cs ++ rest).takeWhile p = cs ∧ (cs ++ rest).dropWhile p = rest := by
  have hstop : rest.takeWhile p = [] ∧ rest.dropWhile p = rest := by
    cases rest with
    | nil => exact ⟨rfl, rfl⟩
    | cons c rest =>
      have hc : ¬ p c = true := by simp [hrest c rfl]
      exact ⟨List.takeWhile_cons_of_neg hc, List.dropWhile_cons_of_neg hc⟩
  constructor
  · rw [List.takeWhile_append_of_pos hcs, hstop.1, List.append_nil]
  · rw [List.dropWhile_append_of_pos hcs, hstop.2]

theorem not_inWord_of_ends (hrest : Ends rest) : ∀ c ∈ rest.head?, inWord c = false := by
  intro c hc
  have hmem := hrest c hc
  simp only [List.mem_cons, List.not_mem_nil, or_false] at hmem
  rcases hmem with rfl | rfl | rfl <;> rfl

theorem readValue_word (h : Readable text read) (v : σ) (hrest : Ends rest) :
    readValue read (n + 1) (text v ++ rest) = some (.scalar v, rest) := by
  have hwords := span_append (h.inWord v) (not_inWord_of_ends hrest)
  cases htext : text v with
  | nil => exact absurd htext (h.ne_nil v)
  | cons c cs =>
    have hc : inWord c = true := h.inWord v c (htext ▸ List.mem_cons_self)
    have hfirst : ∀ d ∈ ['"', '[', '{'], c ≠ d := by
      rintro d hd rfl
      simp only [List.mem_cons, List.not_mem_nil, or_false] at hd
      rcases hd with rfl | rfl | rfl <;> exact absurd hc (by decide)
    rw [htext] at hwords
    rw [List.cons_append] at hwords ⊢
    rw [readValue, hwords.1, hwords.2, ← htext, h.read_text, Option.map_some]
    · exact fun _ h => hfirst '"' (by decide) (List.head_eq_of_cons_eq h)
    · exact fun _ h => hfirst '[' (by decide) (List.head_eq_of_cons_eq h)
    · exact fun _ h => hfirst '[' (by decide) (List.head_eq_of_cons_eq h)
    · exact fun _ h => hfirst '{' (by decide) (List.head_eq_of_cons_eq h)
    · exact fun _ h => hfirst '{' (by decide) (List.head_eq_of_cons_eq h)

theorem compact_head (h : Readable text read) (x : Json σ) :
    ∀ c ∈ (compact text x).head?, c ≠ ']' := by
  intro c hc
  cases x with
  | scalar v =>
    rw [compact] at hc
    have hword := h.inWord v c (List.mem_of_mem_head? hc)
    rintro rfl
    exact absurd hword (by decide)
  | string s =>
    obtain rfl : '"' = c := Option.some.inj hc
    decide
  | array items =>
    obtain rfl : '[' = c := Option.some.inj hc
    decide
  | object members =>
    obtain rfl : '{' = c := Option.some.inj hc
    decide

theorem compact_ne_nil (h : Readable text read) (x : Json σ) : compact text x ≠ [] := by
  cases x with
  | scalar v =>
    rw [compact]
    exact h.ne_nil v
  | string s => exact List.cons_ne_nil _ _
  | array items => exact List.cons_ne_nil _ _
  | object members => exact List.cons_ne_nil _ _

/-- The value is read from its text by as many calls as the text has characters. -/
def ReadBack (text : σ → List Char) (read : List Char → Option σ) (x : Json σ) : Prop :=
  ∀ n rest, (compact text x).length ≤ n → Ends rest →
    readValue read n (compact text x ++ rest) = some (x, rest)

theorem readItems_compact (rest : List Char) {items : List (Json σ)} (hne : items ≠ [])
    (hitems : ∀ item ∈ items, ReadBack text read item)
    (hn : (commaSeparated (items.map (compact text))).length < n) :
    readItems read n (commaSeparated (items.map (compact text)) ++ ']' :: rest) =
      some (items, rest) := by
  induction items generalizing n with
  | nil => exact absurd rfl hne
  | cons item items ih =>
    obtain ⟨n, rfl⟩ : ∃ m, n = m + 1 := ⟨n - 1, by omega⟩
    have hitem := hitems item List.mem_cons_self
    cases items with
    | nil =>
      simp only [List.map_cons, List.map_nil, commaSeparated_cons, List.flatMap_nil,
        List.append_nil] at hn ⊢
      rw [readItems, hitem n _ (by omega) (by rintro c ⟨⟩; decide)]
      rfl
    | cons item' items =>
      have hsplit : commaSeparated ((item :: item' :: items).map (compact text)) =
          compact text item ++ ',' :: commaSeparated ((item' :: items).map (compact text)) := by
        simp only [List.map_cons, commaSeparated_cons, List.flatMap_cons, List.cons_append]
      rw [hsplit, List.length_append, List.length_cons] at hn
      rw [hsplit, List.append_assoc, List.cons_append, readItems,
        hitem n _ (by omega) (by rintro c ⟨⟩; decide)]
      have hrest := ih (List.cons_ne_nil _ _)
        (fun x hx => hitems x (List.mem_cons_of_mem _ hx)) (n := n) (by omega)
      show Option.map _ (readItems read n _) = _
      rw [hrest, Option.map_some]

theorem readMembers_compact (rest : List Char) {members : List (String × Json σ)}
    (hne : members ≠ []) (hmembers : ∀ member ∈ members, ReadBack text read member.2)
    (hn : (commaSeparated (members.map (compactMember text))).length < n) :
    readMembers read n (commaSeparated (members.map (compactMember text)) ++ '}' :: rest) =
      some (members, rest) := by
  have hname : ∀ (s : String) (u : List Char), quoted s ++ u = '"' :: ((quoted s).tail ++ u) :=
    fun _ _ => rfl
  induction members generalizing n with
  | nil => exact absurd rfl hne
  | cons member members ih =>
    obtain ⟨n, rfl⟩ : ∃ m, n = m + 1 := ⟨n - 1, by omega⟩
    have hvalue := hmembers member List.mem_cons_self
    cases members with
    | nil =>
      simp only [List.map_cons, List.map_nil, commaSeparated_cons, List.flatMap_nil,
        List.append_nil, compactMember, List.length_append, List.length_cons] at hn ⊢
      rw [List.append_assoc, List.cons_append, hname, readMembers, readString_quoted]
      simp only [hvalue n _ (show _ ≤ n by omega) (show Ends ('}' :: rest) by rintro c ⟨⟩; decide)]
    | cons member' members =>
      have hsplit : commaSeparated ((member :: member' :: members).map (compactMember text)) =
          quoted member.1 ++ ':' :: (compact text member.2 ++
            ',' :: commaSeparated ((member' :: members).map (compactMember text))) := by
        simp only [List.map_cons, commaSeparated_cons, List.flatMap_cons, List.cons_append,
          compactMember, List.append_assoc]
      rw [hsplit] at hn ⊢
      simp only [List.length_append, List.length_cons] at hn
      rw [List.append_assoc, List.cons_append, List.append_assoc, List.cons_append, hname,
        readMembers, readString_quoted]
      have hrest := ih (List.cons_ne_nil _ _)
        (fun x hx => hmembers x (List.mem_cons_of_mem _ hx)) (n := n) (by omega)
      have hcall := hvalue n (',' :: (commaSeparated ((member' :: members).map
        (compactMember text)) ++ '}' :: rest)) (by omega) (by rintro c ⟨⟩; decide)
      simp only [hcall]
      show Option.map _ (readMembers read n _) = _
      rw [hrest, Option.map_some]

theorem readBack (h : Readable text read) (x : Json σ) : ReadBack text read x := by
  induction x using Json.induction with
  | scalar v =>
    intro n rest hn hrest
    have hpos := List.length_pos_iff.mpr (h.ne_nil v)
    rw [compact] at hn ⊢
    obtain ⟨n, rfl⟩ : ∃ m, n = m + 1 := ⟨n - 1, by omega⟩
    exact readValue_word h v hrest
  | string s =>
    intro n rest hn _
    rw [compact] at hn ⊢
    obtain ⟨n, rfl⟩ : ∃ m, n = m + 1 := ⟨n - 1, by simp [quoted] at hn; omega⟩
    show readValue read (n + 1) ('"' :: ((quoted s).tail ++ rest)) = _
    rw [readValue, readString_quoted, Option.map_some]
  | array items ih =>
    intro n rest hn _
    rw [compact, compactItems_eq] at hn ⊢
    rw [List.length_cons, List.length_append, List.length_singleton] at hn
    obtain ⟨n, rfl⟩ : ∃ m, n = m + 1 := ⟨n - 1, by omega⟩
    rw [List.cons_append, List.append_assoc, List.singleton_append]
    cases items with
    | nil => rfl
    | cons item items =>
      have hread := readItems_compact rest (List.cons_ne_nil item items) ih
        (n := n) (by omega)
      -- no item begins with the closing bracket
      have hfirst : ∀ u, commaSeparated ((item :: items).map (compact text)) ++ ']' :: rest ≠
          ']' :: u := by
        intro u hu
        obtain ⟨c, cs, hcs⟩ := List.exists_cons_of_ne_nil (compact_ne_nil h item)
        rw [List.map_cons, commaSeparated_cons, hcs] at hu
        exact compact_head h item c (by rw [hcs]; rfl) (List.head_eq_of_cons_eq hu)
      rw [readValue, hread, Option.map_some]
      exact hfirst
  | object members ih =>
    intro n rest hn _
    rw [compact, compactMembers_eq] at hn ⊢
    rw [List.length_cons, List.length_append, List.length_singleton] at hn
    obtain ⟨n, rfl⟩ : ∃ m, n = m + 1 := ⟨n - 1, by omega⟩
    rw [List.cons_append, List.append_assoc, List.singleton_append]
    cases members with
    | nil => rfl
    | cons member members =>
      have hread := readMembers_compact rest (List.cons_ne_nil member members) ih
        (n := n) (by omega)
      rw [readValue, hread, Option.map_some]
      -- no member begins with the closing brace
      intro u hu
      rw [List.map_cons, commaSeparated_cons, compactMember] at hu
      exact absurd (List.head_eq_of_cons_eq hu) (by decide)

theorem parse_compact (h : Readable text read) (x : Json σ) :
    parse read (compact text x) = some x := by
  have hread := readBack h x ((compact text x).length + 1) [] (Nat.le_succ _) (by rintro c ⟨⟩)
  rw [List.append_nil] at hread
  rw [parse, hread]

end RoundTrip

theorem Same.refl (x : Json σ) : Same x x := by
  induction x using Json.induction with
  | scalar v => exact .scalar v
  | string s => exact .string s
  | array items ih =>
    refine .array rfl fun i v v' hv hv' => ?_
    rw [hv] at hv'
    rw [← Option.some.inj hv']
    exact ih v (List.mem_of_getElem? hv)
  | object members ih =>
    refine .object (fun _ => Iff.rfl) fun name v v' hv hv' => ?_
    rw [hv] at hv'
    rw [← Option.some.inj hv']
    exact ih (name, v) (Fields.mem_of_get hv)

end Json
