import Rheonic.Lib.Objects
import Rheonic.Lib.SortedBy

/-- A JSON value over some type of literals and numbers. -/
inductive Json (σ : Type)
  | scalar (v : σ)
  | string (s : String)
  | array (items : List (Json σ))
  | object (members : List (String × Json σ))

namespace Json
open SortedBy

variable {σ : Type}

/-- A property of all values holds of an array if it holds of its items, and of an object if it
holds of its members. -/
@[elab_as_elim]
theorem induction {motive : Json σ → Prop} (scalar : ∀ v, motive (.scalar v))
    (string : ∀ s, motive (.string s))
    (array : ∀ items, (∀ item ∈ items, motive item) → motive (.array items))
    (object : ∀ members, (∀ member ∈ members, motive member.2) → motive (.object members)) :
    ∀ x, motive x
  | .scalar v => scalar v
  | .string s => string s
  | .array items => array items fun item _ => induction scalar string array object item
  | .object members =>
    object members fun member _ => induction scalar string array object member.2
decreasing_by
  · rename_i hitem
    have hlt := List.sizeOf_lt_of_mem hitem
    simp only [Json.array.sizeOf_spec]
    omega
  · rename_i hmember
    have hlt := List.sizeOf_lt_of_mem hmember
    have hsecond : sizeOf member = 1 + sizeOf member.1 + sizeOf member.2 := rfl
    simp only [Json.object.sizeOf_spec]
    omega

/-- No object has two members of one name, at any depth. -/
inductive WellFormed : Json σ → Prop
  | scalar (v : σ) : WellFormed (.scalar v)
  | string (s : String) : WellFormed (.string s)
  | array {items : List (Json σ)} (hitems : ∀ item ∈ items, WellFormed item) :
    WellFormed (.array items)
  | object {members : Fields (Json σ)} (hnames : (members.map Prod.fst).Nodup)
    (hmembers : ∀ member ∈ members, WellFormed member.2) : WellFormed (.object members)

/-- Equality of JSON values: objects are equal if they have the same names with equal values, in any
order. -/
inductive Same : Json σ → Json σ → Prop
  | scalar (v : σ) : Same (.scalar v) (.scalar v)
  | string (s : String) : Same (.string s) (.string s)
  | array {items items' : List (Json σ)} (hlength : items.length = items'.length)
    (hitems : ∀ (i : ℕ) v v', items[i]? = some v → items'[i]? = some v' → Same v v') :
    Same (.array items) (.array items')
  | object {members members' : Fields (Json σ)}
    (hnames : ∀ name, members.get name = none ↔ members'.get name = none)
    (hvalues : ∀ name v v', members.get name = some v → members'.get name = some v' → Same v v') :
    Same (.object members) (.object members')

section Strings

/-- The characters that are not written as they are. -/
def specials : List Char := ['"', '\\'] ++ (List.range 32).map Char.ofNat

/-- What follows the backslash of an escape. -/
def escapeCode : Char → List Char
  | '"' => ['"']
  | '\\' => ['\\']
  | '\n' => ['n']
  | '\r' => ['r']
  | '\t' => ['t']
  | '\x0c' => ['f']
  | '\x08' => ['b']
  | c => ['u', '0', '0', Nat.digitChar (c.toNat / 16), Nat.digitChar (c.toNat % 16)]

def escape (c : Char) : List Char := if c ∈ specials then '\\' :: escapeCode c else [c]

/-- A string in quotes, with the escapes that it needs. -/
def quoted (s : String) : List Char := '"' :: (s.toList.flatMap escape ++ ['"'])

variable {c d : Char} {u v : List Char}

theorem escapeCode_prefix_free :
    ∀ c ∈ specials, ∀ d ∈ specials, escapeCode c <+: escapeCode d → c = d := by
  have hall : (specials.all fun c => specials.all fun d =>
      !(escapeCode c).isPrefixOf (escapeCode d) || c == d) = true := by decide +kernel
  intro c hc d hd hprefix
  have hd := List.all_eq_true.mp (List.all_eq_true.mp hall c hc) d hd
  rw [List.isPrefixOf_iff_prefix.mpr hprefix] at hd
  simpa using hd

theorem escape_inj (h : escape c ++ u = escape d ++ v) : c = d ∧ u = v := by
  have hcancel (hcd : c = d) : c = d ∧ u = v := by
    rw [hcd] at h
    exact ⟨hcd, List.append_cancel_left h⟩
  have hbackslash : '\\' ∈ specials := by decide
  unfold escape at h
  by_cases hc : c ∈ specials
  · by_cases hd : d ∈ specials
    · rw [if_pos hc, if_pos hd, List.cons_append, List.cons_append] at h
      have hcodes : escapeCode c ++ u = escapeCode d ++ v := List.tail_eq_of_cons_eq h
      have hleft : escapeCode c <+: escapeCode d ++ v := ⟨u, hcodes⟩
      have hright : escapeCode d <+: escapeCode d ++ v := ⟨v, rfl⟩
      rcases List.prefix_or_prefix_of_prefix hleft hright with hprefix | hprefix
      · exact hcancel (escapeCode_prefix_free c hc d hd hprefix)
      · exact hcancel (escapeCode_prefix_free d hd c hc hprefix).symm
    · rw [if_pos hc, if_neg hd] at h
      have hhead : '\\' = d := List.head_eq_of_cons_eq h
      exact absurd (hhead ▸ hbackslash) hd
  · by_cases hd : d ∈ specials
    · rw [if_neg hc, if_pos hd] at h
      have hhead : c = '\\' := List.head_eq_of_cons_eq h
      exact absurd (hhead ▸ hbackslash) hc
    · rw [if_neg hc, if_neg hd] at h
      exact hcancel (List.head_eq_of_cons_eq h)

theorem escape_append_ne_quote : escape c ++ u ≠ '"' :: v := by
  have hquote : '"' ∈ specials := by decide
  unfold escape
  by_cases hc : c ∈ specials
  · rw [if_pos hc]
    intro h
    exact absurd (List.head_eq_of_cons_eq h) (by decide)
  · rw [if_neg hc]
    intro h
    have hhead : c = '"' := List.head_eq_of_cons_eq h
    exact hc (hhead ▸ hquote)

theorem quoted_inj {s t : String} (h : quoted s ++ u = quoted t ++ v) : s = t ∧ u = v := by
  have hchars : ∀ cs ds : List Char,
      cs.flatMap escape ++ '"' :: u = ds.flatMap escape ++ '"' :: v → cs = ds ∧ u = v := by
    intro cs
    induction cs with
    | nil =>
      intro ds hds
      cases ds with
      | nil => exact ⟨rfl, List.tail_eq_of_cons_eq hds⟩
      | cons d ds =>
        rw [List.flatMap_cons, List.append_assoc] at hds
        exact absurd hds.symm escape_append_ne_quote
    | cons c cs ih =>
      intro ds hds
      cases ds with
      | nil =>
        rw [List.flatMap_cons, List.append_assoc] at hds
        exact absurd hds escape_append_ne_quote
      | cons d ds =>
        rw [List.flatMap_cons, List.flatMap_cons, List.append_assoc, List.append_assoc] at hds
        obtain ⟨hcd, hrest⟩ := escape_inj hds
        obtain ⟨hcs, huv⟩ := ih ds hrest
        exact ⟨by rw [hcd, hcs], huv⟩
  have htail : s.toList.flatMap escape ++ '"' :: u = t.toList.flatMap escape ++ '"' :: v := by
    simpa [quoted] using h
  obtain ⟨hlist, huv⟩ := hchars s.toList t.toList htail
  exact ⟨String.toList_injective hlist, huv⟩

end Strings

section Text

variable (text : σ → List Char)

def commaSeparated (texts : List (List Char)) : List Char := [','].intercalate texts

def memberText (member : String × List Char) : List Char := quoted member.1 ++ ':' :: member.2

mutual

/-- The compact text of a value, with the members of every object in the order of their names. -/
def dumps : Json σ → List Char
  | .scalar v => text v
  | .string s => quoted s
  | .array items => '[' :: (commaSeparated (dumpsItems items) ++ [']'])
  | .object members =>
    '{' :: (commaSeparated ((sortedBy Prod.fst (dumpsMembers members)).map memberText) ++ ['}'])

def dumpsItems : List (Json σ) → List (List Char)
  | [] => []
  | item :: items => dumps item :: dumpsItems items

def dumpsMembers : List (String × Json σ) → List (String × List Char)
  | [] => []
  | (name, value) :: members => (name, dumps value) :: dumpsMembers members

end

theorem dumpsItems_eq (items : List (Json σ)) : dumpsItems text items = items.map (dumps text) := by
  induction items with
  | nil => rfl
  | cons item items ih => rw [dumpsItems, ih, List.map_cons]

theorem dumpsMembers_eq (members : List (String × Json σ)) :
    dumpsMembers text members = members.map fun member => (member.1, dumps text member.2) := by
  induction members with
  | nil => rfl
  | cons member members ih => rw [dumpsMembers, ih, List.map_cons]

/-- The text of a member with its value. -/
def valueText (member : String × Json σ) : List Char :=
  quoted member.1 ++ ':' :: dumps text member.2

theorem dumps_array (items : List (Json σ)) :
    dumps text (.array items) = '[' :: (commaSeparated (items.map (dumps text)) ++ [']']) := by
  rw [dumps, dumpsItems_eq]

theorem dumps_object (members : List (String × Json σ)) :
    dumps text (.object members) =
      '{' :: (commaSeparated ((sortedBy Prod.fst members).map (valueText text)) ++ ['}']) := by
  have hsorted : sortedBy Prod.fst (dumpsMembers text members) =
      (sortedBy Prod.fst members).map fun member => (member.1, dumps text member.2) := by
    rw [dumpsMembers_eq]
    exact (List.map_insertionSort (fun a b : String × Json σ => a.1 ≤ b.1)
      (fun a b : String × List Char => a.1 ≤ b.1) _ members fun a _ b _ => Iff.rfl).symm
  rw [dumps, hsorted, List.map_map]
  rfl

/-- Literals and numbers are told apart by their texts, which are not empty and have none of the
characters that delimit other values. -/
structure Plain : Prop where
  injective : Function.Injective text
  ne_nil : ∀ v, text v ≠ []
  plain : ∀ v, ∀ c ∈ text v, c ∉ ['"', '[', '{', ',', ']', '}']

end Text

/-- What may follow a value in a text: nothing, a comma or a closing bracket. -/
def Ends (rest : List Char) : Prop := ∀ c ∈ rest.head?, c ∈ [',', ']', '}']

section Reading

variable {text : σ → List Char} {u v : List Char}

/-- A run of characters with a property is read up to the first character without it. -/
theorem append_inj_of_stop {p : Char → Prop} {a b : List Char} (ha : ∀ c ∈ a, p c)
    (hb : ∀ c ∈ b, p c) (hu : ∀ c ∈ u.head?, ¬p c) (hv : ∀ c ∈ v.head?, ¬p c)
    (h : a ++ u = b ++ v) : a = b ∧ u = v := by
  induction a generalizing b with
  | nil =>
    cases b with
    | nil => exact ⟨rfl, h⟩
    | cons d b =>
      have hhead : u.head? = some d := by
        rw [List.nil_append] at h
        rw [h, List.cons_append, List.head?_cons]
      exact absurd (hb d List.mem_cons_self) (hu d hhead)
  | cons c a ih =>
    cases b with
    | nil =>
      have hhead : v.head? = some c := by
        rw [List.nil_append] at h
        rw [← h, List.cons_append, List.head?_cons]
      exact absurd (ha c List.mem_cons_self) (hv c hhead)
    | cons d b =>
      rw [List.cons_append, List.cons_append, List.cons.injEq] at h
      obtain ⟨hab, huv⟩ := ih (fun e he => ha e (List.mem_cons_of_mem _ he))
        (fun e he => hb e (List.mem_cons_of_mem _ he)) h.2
      exact ⟨by rw [h.1, hab], huv⟩

theorem scalar_inj (htext : Plain text) (hu : Ends u) (hv : Ends v) {a b : σ}
    (h : text a ++ u = text b ++ v) : a = b ∧ u = v := by
  have hstop (w : List Char) (hw : Ends w) :
      ∀ c ∈ w.head?, ¬c ∉ ['"', '[', '{', ',', ']', '}'] := by
    intro c hc hnot
    have hmem := hw c hc
    simp only [List.mem_cons, List.not_mem_nil, or_false] at hmem hnot
    exact hnot (by rcases hmem with h | h | h <;> simp [h])
  obtain ⟨hab, huv⟩ := append_inj_of_stop (htext.plain a) (htext.plain b) (hstop u hu)
    (hstop v hv) h
  exact ⟨htext.injective hab, huv⟩

theorem commaSeparated_cons (t : List Char) (ts : List (List Char)) :
    commaSeparated (t :: ts) = t ++ ts.flatMap (',' :: ·) := by
  induction ts generalizing t with
  | nil => simp [commaSeparated]
  | cons t' ts ih =>
    have hrest : commaSeparated (t :: t' :: ts) = t ++ ',' :: commaSeparated (t' :: ts) := by
      simp [commaSeparated, List.intercalate_cons_of_ne_nil]
    rw [hrest, ih, List.flatMap_cons]
    rfl

/-- What follows the first entry of a list: more entries, each behind a comma, and the closing
bracket. -/
def moreEntries (close : Char) (texts : List (List Char)) (u : List Char) : List Char :=
  texts.flatMap (',' :: ·) ++ close :: u

section Entries

variable {β : Type} {write : β → List Char} {related : β → β → Prop} {close : Char} {xs ys : List β}

theorem ends_moreEntries (hclose : close ∈ [']', '}']) (texts : List (List Char)) :
    Ends (moreEntries close texts u) := by
  intro c hc
  cases texts with
  | nil =>
    have hc : close = c := Option.some.inj hc
    rw [← hc]
    exact List.mem_cons_of_mem _ hclose
  | cons t texts =>
    have hc : ',' = c := Option.some.inj hc
    rw [← hc]
    exact List.mem_cons_self

theorem moreEntries_cons (t : List Char) (texts : List (List Char)) :
    moreEntries close (t :: texts) u = ',' :: (t ++ moreEntries close texts u) := by
  rw [moreEntries, List.flatMap_cons, List.append_assoc]
  rfl

theorem commaSeparated_cons_append (t : List Char) (texts : List (List Char)) :
    commaSeparated (t :: texts) ++ close :: u = t ++ moreEntries close texts u := by
  rw [commaSeparated_cons, List.append_assoc]
  rfl

theorem moreEntries_inj (hclose : close ∈ [']', '}'])
    (hread : ∀ x ∈ xs, ∀ y ∈ ys, ∀ w w', Ends w → Ends w' → write x ++ w = write y ++ w' →
      related x y ∧ w = w')
    (h : moreEntries close (xs.map write) u = moreEntries close (ys.map write) v) :
    List.Forall₂ related xs ys ∧ u = v := by
  have hcomma : close ≠ ',' := by
    rintro rfl
    exact absurd hclose (by decide)
  induction xs generalizing ys with
  | nil =>
    cases ys with
    | nil => exact ⟨List.Forall₂.nil, List.tail_eq_of_cons_eq h⟩
    | cons y ys => exact absurd (List.head_eq_of_cons_eq h) hcomma
  | cons x xs ih =>
    cases ys with
    | nil => exact absurd (List.head_eq_of_cons_eq h).symm hcomma
    | cons y ys =>
      rw [List.map_cons, List.map_cons, moreEntries_cons, moreEntries_cons] at h
      obtain ⟨hxy, hrest⟩ := hread x List.mem_cons_self y List.mem_cons_self _ _
        (ends_moreEntries hclose _) (ends_moreEntries hclose _) (List.tail_eq_of_cons_eq h)
      obtain ⟨hall, huv⟩ := ih (fun x hx y hy => hread x (List.mem_cons_of_mem _ hx) y
        (List.mem_cons_of_mem _ hy)) hrest
      exact ⟨List.Forall₂.cons hxy hall, huv⟩

/-- A list is read back from its text if its entries are read back from theirs. -/
theorem commaSeparated_inj (hclose : close ∈ [']', '}'])
    (hstart : ∀ x w w', write x ++ w ≠ close :: w')
    (hread : ∀ x ∈ xs, ∀ y ∈ ys, ∀ w w', Ends w → Ends w' → write x ++ w = write y ++ w' →
      related x y ∧ w = w')
    (h : commaSeparated (xs.map write) ++ close :: u = commaSeparated (ys.map write) ++ close :: v) :
    List.Forall₂ related xs ys ∧ u = v := by
  cases xs with
  | nil =>
    cases ys with
    | nil => exact ⟨List.Forall₂.nil, List.tail_eq_of_cons_eq h⟩
    | cons y ys =>
      rw [List.map_cons, commaSeparated_cons_append] at h
      exact absurd h.symm (hstart y _ _)
  | cons x xs =>
    cases ys with
    | nil =>
      rw [List.map_cons, commaSeparated_cons_append] at h
      exact absurd h (hstart x _ _)
    | cons y ys =>
      rw [List.map_cons, List.map_cons, commaSeparated_cons_append, commaSeparated_cons_append] at h
      obtain ⟨hxy, hrest⟩ := hread x List.mem_cons_self y List.mem_cons_self _ _
        (ends_moreEntries hclose _) (ends_moreEntries hclose _) h
      obtain ⟨hall, huv⟩ := moreEntries_inj hclose (fun x hx y hy => hread x
        (List.mem_cons_of_mem _ hx) y (List.mem_cons_of_mem _ hy)) hrest
      exact ⟨List.Forall₂.cons hxy hall, huv⟩

end Entries

/-- The character that a text opens with, unless it is that of a literal or number. -/
def opening : Json σ → Option Char
  | .scalar _ => none
  | .string _ => some '"'
  | .array _ => some '['
  | .object _ => some '{'

theorem dumps_opening (htext : Plain text) (x : Json σ) :
    ∃ c rest, dumps text x = c :: rest ∧
      (opening x = some c ∨ opening x = none ∧ c ∉ ['"', '[', '{', ',', ']', '}']) := by
  cases x with
  | scalar a =>
    cases ha : text a with
    | nil => exact absurd ha (htext.ne_nil a)
    | cons c rest =>
      refine ⟨c, rest, by rw [dumps, ha], .inr ⟨rfl, ?_⟩⟩
      exact htext.plain a c (ha ▸ List.mem_cons_self)
  | string s => exact ⟨_, _, by rw [dumps]; rfl, .inl rfl⟩
  | array items => exact ⟨_, _, dumps_array text items, .inl rfl⟩
  | object members => exact ⟨_, _, dumps_object text members, .inl rfl⟩

theorem opening_eq (htext : Plain text) {x y : Json σ}
    (h : dumps text x ++ u = dumps text y ++ v) : opening x = opening y := by
  have hshape (z : Json σ) (c : Char) (hz : opening z = some c) :
      c ∈ ['"', '[', '{', ',', ']', '}'] := by
    cases z with
    | scalar a => exact absurd hz.symm (Option.some_ne_none c)
    | string s => exact Option.some.inj hz ▸ by decide
    | array items => exact Option.some.inj hz ▸ by decide
    | object members => exact Option.some.inj hz ▸ by decide
  obtain ⟨c, rest, hx, hxc⟩ := dumps_opening htext x
  obtain ⟨d, rest', hy, hyd⟩ := dumps_opening htext y
  rw [hx, hy] at h
  have hcd : c = d := List.head_eq_of_cons_eq h
  rcases hxc with hxc | ⟨hxnone, hxc⟩
  · rcases hyd with hyd | ⟨-, hyd⟩
    · rw [hxc, hyd, hcd]
    · exact absurd (hcd ▸ hshape x c hxc) hyd
  · rcases hyd with hyd | ⟨hynone, -⟩
    · exact absurd (hcd ▸ hshape y d hyd) hxc
    · rw [hxnone, hynone]

theorem dumps_append_ne (htext : Plain text) {close : Char} (hclose : close ∈ [']', '}'])
    (x : Json σ) : dumps text x ++ u ≠ close :: v := by
  intro h
  obtain ⟨c, rest, hx, hc⟩ := dumps_opening htext x
  rw [hx] at h
  have hhead : c = close := List.head_eq_of_cons_eq h
  rw [hhead] at hc
  rcases hc with hc | ⟨-, hc⟩
  · cases x with
    | scalar a => exact absurd hc.symm (Option.some_ne_none close)
    | string s => exact absurd (Option.some.inj hc ▸ hclose) (by decide)
    | array items => exact absurd (Option.some.inj hc ▸ hclose) (by decide)
    | object members => exact absurd (Option.some.inj hc ▸ hclose) (by decide)
  · simp only [List.mem_cons, List.not_mem_nil, or_false, not_or] at hclose hc
    rcases hclose with rfl | rfl
    · exact hc.2.2.2.2.1 rfl
    · exact hc.2.2.2.2.2 rfl

/-- Two members with one name and equal values. -/
def SameMember (member member' : String × Json σ) : Prop :=
  member.1 = member'.1 ∧ Same member.2 member'.2

theorem exists_of_forall₂ {β : Type} {related : β → β → Prop} {xs ys : List β} {x : β}
    (h : List.Forall₂ related xs ys) (hx : x ∈ xs) : ∃ y ∈ ys, related x y := by
  induction h with
  | nil => exact absurd hx List.not_mem_nil
  | cons hxy hall ih =>
    rcases List.mem_cons.mp hx with rfl | hx
    · exact ⟨_, List.mem_cons_self, hxy⟩
    · obtain ⟨y, hy, hrelated⟩ := ih hx
      exact ⟨y, List.mem_cons_of_mem _ hy, hrelated⟩

theorem same_object_of_forall₂ {members members' l l' : Fields (Json σ)}
    (hnames' : (members'.map Prod.fst).Nodup) (hl : l.Perm members) (hl' : l'.Perm members')
    (h : List.Forall₂ SameMember l l') : Same (.object members) (.object members') := by
  have hforth {name : String} {v : Json σ} (hv : (name, v) ∈ members) :
      ∃ v', (name, v') ∈ members' ∧ Same v v' := by
    obtain ⟨⟨name', v'⟩, hmem, hname, hsame⟩ := exists_of_forall₂ h (hl.mem_iff.mpr hv)
    dsimp only at hname hsame
    exact ⟨v', hname ▸ hl'.mem_iff.mp hmem, hsame⟩
  have hback {name : String} {v' : Json σ} (hv : (name, v') ∈ members') :
      ∃ v, (name, v) ∈ members ∧ Same v v' := by
    obtain ⟨⟨name', v⟩, hmem, hname, hsame⟩ := exists_of_forall₂ h.flip (hl'.mem_iff.mpr hv)
    dsimp only at hname hsame
    exact ⟨v, hname ▸ hl.mem_iff.mp hmem, hsame⟩
  apply Same.object
  · intro name
    rw [Fields.get_eq_none_iff, Fields.get_eq_none_iff, not_iff_not, List.mem_map, List.mem_map]
    constructor
    · rintro ⟨⟨name, v⟩, hv, rfl⟩
      obtain ⟨v', hv', -⟩ := hforth hv
      exact ⟨(name, v'), hv', rfl⟩
    · rintro ⟨⟨name, v'⟩, hv', rfl⟩
      obtain ⟨v, hv, -⟩ := hback hv'
      exact ⟨(name, v), hv, rfl⟩
  · intro name v v' hv hv'
    obtain ⟨w, hw, hsame⟩ := hforth (Fields.mem_of_get hv)
    rw [(Fields.get_eq_some_iff hnames').mpr hw] at hv'
    rw [← Option.some.inj hv']
    exact hsame

theorem same_array_of_forall₂ {items items' : List (Json σ)} (h : List.Forall₂ Same items items') :
    Same (.array items) (.array items') := by
  apply Same.array h.length_eq
  intro i v v' hv hv'
  obtain ⟨hi, hv⟩ := List.getElem?_eq_some_iff.mp hv
  obtain ⟨hi', hv'⟩ := List.getElem?_eq_some_iff.mp hv'
  rw [← hv, ← hv']
  exact (List.forall₂_iff_get.mp h).2 i hi hi'

/-- A value is read back from its text, up to the order of members, whatever follows it. -/
theorem dumps_inj (htext : Plain text) (x : Json σ) :
    WellFormed x → ∀ y, WellFormed y → ∀ u v, Ends u → Ends v →
      dumps text x ++ u = dumps text y ++ v → Same x y ∧ u = v := by
  -- By induction on the first value: its entries are read back wherever they stand.
  induction x using Json.induction with
  | scalar a =>
    intro _ y _ u v hu hv h
    -- values of two kinds differ in their first character
    cases y with
    | scalar b =>
      rw [dumps, dumps] at h
      obtain ⟨hab, huv⟩ := scalar_inj htext hu hv h
      exact ⟨hab ▸ Same.scalar a, huv⟩
    | string t => exact absurd (opening_eq htext h) (by simp [opening])
    | array items' => exact absurd (opening_eq htext h) (by simp [opening])
    | object members' => exact absurd (opening_eq htext h) (by simp [opening])
  | string s =>
    intro _ y _ u v _ _ h
    cases y with
    | scalar b => exact absurd (opening_eq htext h) (by simp [opening])
    | string t =>
      rw [dumps, dumps] at h
      obtain ⟨hst, huv⟩ := quoted_inj h
      exact ⟨hst ▸ Same.string s, huv⟩
    | array items' => exact absurd (opening_eq htext h) (by simp [opening])
    | object members' => exact absurd (opening_eq htext h) (by simp [opening])
  | array items ih =>
    intro hx y hy u v _ _ h
    cases y with
    | scalar b => exact absurd (opening_eq htext h) (by simp [opening])
    | string t => exact absurd (opening_eq htext h) (by simp [opening])
    | array items' =>
      cases hx with
      | array hitems =>
        cases hy with
        | array hitems' =>
          rw [dumps_array, dumps_array, List.cons_append, List.cons_append, List.cons.injEq,
            List.append_assoc, List.append_assoc] at h
          -- after an item, the text of either value goes on with a comma or a bracket
          have hread : ∀ item ∈ items, ∀ item' ∈ items', ∀ w w', Ends w → Ends w' →
              dumps text item ++ w = dumps text item' ++ w' → Same item item' ∧ w = w' := by
            intro item hitem item' hitem'
            exact ih item hitem (hitems item hitem) item' (hitems' item' hitem')
          obtain ⟨hall, huv⟩ := commaSeparated_inj (by decide)
            (fun item w w' => dumps_append_ne htext (by decide) item) hread h.2
          exact ⟨same_array_of_forall₂ hall, huv⟩
    | object members' => exact absurd (opening_eq htext h) (by simp [opening])
  | object members ih =>
    intro hx y hy u v _ _ h
    cases y with
    | scalar b => exact absurd (opening_eq htext h) (by simp [opening])
    | string t => exact absurd (opening_eq htext h) (by simp [opening])
    | array items' => exact absurd (opening_eq htext h) (by simp [opening])
    | object members' =>
      cases hx with
      | object hnames hmembers =>
        cases hy with
        | object hnames' hmembers' =>
          rw [dumps_object, dumps_object, List.cons_append, List.cons_append, List.cons.injEq,
            List.append_assoc, List.append_assoc] at h
          -- members are compared in the order of their names, which the texts share
          have hread : ∀ m ∈ sortedBy Prod.fst members, ∀ m' ∈ sortedBy Prod.fst members',
              ∀ w w', Ends w → Ends w' → valueText text m ++ w = valueText text m' ++ w' →
                SameMember m m' ∧ w = w' := by
            intro m hm m' hm' w w' hw hw' hmember
            rw [valueText, valueText, List.append_assoc, List.append_assoc] at hmember
            obtain ⟨hname, hvalue⟩ := quoted_inj hmember
            obtain ⟨hsame, hrest⟩ := ih m (mem_sortedBy.mp hm) (hmembers m (mem_sortedBy.mp hm))
              m'.2 (hmembers' m' (mem_sortedBy.mp hm')) w w' hw hw' (List.tail_eq_of_cons_eq hvalue)
            exact ⟨⟨hname, hsame⟩, hrest⟩
          obtain ⟨hall, huv⟩ := commaSeparated_inj (by decide)
            (fun m w w' hm => absurd (List.head_eq_of_cons_eq hm) (by decide)) hread h.2
          exact ⟨same_object_of_forall₂ hnames' (sortedBy_perm _ _) (sortedBy_perm _ _) hall, huv⟩

theorem mem_dumpsMembers {members : Fields (Json σ)} (hnames : (members.map Prod.fst).Nodup)
    {name : String} {t : List Char} :
    (name, t) ∈ dumpsMembers text members ↔ ∃ v, members.get name = some v ∧ dumps text v = t := by
  rw [dumpsMembers_eq, List.mem_map]
  constructor
  · rintro ⟨⟨name', v⟩, hv, heq⟩
    obtain ⟨rfl, rfl⟩ := Prod.mk.inj heq
    exact ⟨v, (Fields.get_eq_some_iff hnames).mpr hv, rfl⟩
  · rintro ⟨v, hv, rfl⟩
    exact ⟨(name, v), Fields.mem_of_get hv, rfl⟩

theorem dumpsMembers_perm {members members' : Fields (Json σ)}
    (hnames : (members.map Prod.fst).Nodup) (hnames' : (members'.map Prod.fst).Nodup)
    (hsame : ∀ name, members.get name = none ↔ members'.get name = none)
    (hvalues : ∀ name v v', members.get name = some v → members'.get name = some v' →
      dumps text v = dumps text v') :
    (dumpsMembers text members).Perm (dumpsMembers text members') := by
  have hnodup (ms : Fields (Json σ)) (h : (ms.map Prod.fst).Nodup) :
      (dumpsMembers text ms).Nodup := by
    apply List.Nodup.of_map Prod.fst
    rw [dumpsMembers_eq, List.map_map]
    exact h
  rw [List.perm_ext_iff_of_nodup (hnodup members hnames) (hnodup members' hnames')]
  rintro ⟨name, t⟩
  rw [mem_dumpsMembers hnames, mem_dumpsMembers hnames']
  -- Both objects have the name, or neither has.
  cases hv : members.get name with
  | none =>
    rw [(hsame name).mp hv]
  | some v =>
    cases hv' : members'.get name with
    | none => exact absurd ((hsame name).mpr hv') (hv ▸ Option.some_ne_none v)
    | some v' =>
      have htexts := hvalues name v v' hv hv'
      simp only [Option.some.injEq, exists_eq_left', htexts]

theorem dumps_eq_of_same {x y : Json σ} (h : Same x y) :
    WellFormed x → WellFormed y → dumps text x = dumps text y := by
  induction h with
  | scalar a => exact fun _ _ => rfl
  | string s => exact fun _ _ => rfl
  | @array items items' hlength _ ih =>
    intro hx hy
    cases hx with
    | array hitems =>
      cases hy with
      | array hitems' =>
        have htexts : items.map (dumps text) = items'.map (dumps text) := by
          apply List.ext_getElem
          · rw [List.length_map, List.length_map, hlength]
          · intro i hi hi'
            rw [List.length_map] at hi hi'
            rw [List.getElem_map, List.getElem_map]
            exact ih i _ _ (List.getElem?_eq_getElem hi) (List.getElem?_eq_getElem hi')
              (hitems _ (List.getElem_mem hi)) (hitems' _ (List.getElem_mem hi'))
        rw [dumps_array, dumps_array, htexts]
  | @object members members' hsame _ ih =>
    intro hx hy
    cases hx with
    | object hnames hmembers =>
      cases hy with
      | object hnames' hmembers' =>
        have hvalues : ∀ name v v', Fields.get members name = some v →
            Fields.get members' name = some v' → dumps text v = dumps text v' := by
          intro name v v' hv hv'
          exact ih name v v' hv hv' (hmembers _ (Fields.mem_of_get hv))
            (hmembers' _ (Fields.mem_of_get hv'))
        have hkeys : ((dumpsMembers text members).map Prod.fst).Nodup := by
          rw [dumpsMembers_eq, List.map_map]
          exact hnames
        rw [dumps, dumps, sortedBy_eq_of_perm
          (dumpsMembers_perm hnames hnames' hsame hvalues) hkeys]

theorem dumps_eq_iff (htext : Plain text) {x y : Json σ} (hx : WellFormed x) (hy : WellFormed y) :
    dumps text x = dumps text y ↔ Same x y := by
  constructor
  · intro h
    have hends : Ends [] := fun c hc => absurd hc.symm (Option.some_ne_none c)
    exact (dumps_inj htext x hx y hy [] [] hends hends (by rw [h])).1
  · intro h
    exact dumps_eq_of_same h hx hy

end Reading

end Json
