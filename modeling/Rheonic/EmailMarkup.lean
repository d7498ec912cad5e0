import Rheonic.EmailTemplates

namespace Rheonic.EmailTemplates
open Markup
open PyText (strip)

set_option maxRecDepth 8192

def cellName : List Char := ['t', 'd']

/-- All of an email that its tags may depend on. -/
structure Shape where
  eyebrowBlank : Bool
  footerBlank : Bool
  /-- The newlines of each value. -/
  newlines : List ℕ
  deriving DecidableEq, Repr

def Email.shape (email : Email) : Shape where
  eyebrowBlank := strip (email.eyebrow.getD "") = ""
  footerBlank := strip (email.footer.getD "") = ""
  newlines := email.fields.map fun field => field.2.toList.count '\n'

def literalTags (text : String) : List Token := tags (read text.toList)

def header (resolvedPublicAppBaseUrl : String) : String :=
  logoStart ++ escape (publicLogoUrl resolvedPublicAppBaseUrl) ++ logoEnd ++ brand

def rowTags (newlines : ℕ) : List Token :=
  literalTags labelStart ++ literalTags valueStart ++ List.replicate newlines lineBreak ++
    literalTags rowEnd

/-- The tags of an email of a shape. -/
def layout (resolvedPublicAppBaseUrl : String) (shape : Shape) : List Token :=
  literalTags (header resolvedPublicAppBaseUrl) ++
    (if shape.eyebrowBlank then [] else literalTags eyebrowStart ++ literalTags eyebrowEnd) ++
    literalTags titleStart ++ literalTags subtitleStart ++ literalTags tableStart ++
    shape.newlines.flatMap rowTags ++ literalTags tableEnd ++
    (if shape.footerBlank then [] else literalTags footerStart ++ literalTags footerEnd) ++
    literalTags pageEnd

section Quiet

variable {text text' : String} {l : List Char}

/-- A text that leaves no tag open and has nothing to do with cells. -/
structure Quiet (text : String) : Prop where
  reads : Reads text.toList (read text.toList)
  inert : ∀ token ∈ read text.toList, inert cellName token = true

theorem quiet_literal (htext : text.toList = l) (h : (scan .text l).2 = .text ∧
    ∀ token ∈ (scan .text l).1, Markup.inert cellName token = true) : Quiet text where
  reads := by
    rw [htext]
    exact reads_of_closed h.1
  inert := by
    rw [htext]
    exact h.2

theorem reads_append {s t : List Token} (h : Reads text.toList s) (h' : Reads text'.toList t) :
    Reads (text ++ text').toList (s ++ t) := by
  rw [String.toList_append]
  exact h.append h'

theorem Quiet.append (h : Quiet text) (h' : Quiet text') : Quiet (text ++ text') := by
  have hreads := reads_append h.reads h'.reads
  have hread := hreads.read_eq
  refine ⟨hread ▸ hreads, fun token htoken => ?_⟩
  rw [hread, List.mem_append] at htoken
  exact htoken.elim (h.inert token) (h'.inert token)

theorem toList_escape (text : String) : (escape text).toList = Markup.escape text.toList :=
  String.toList_ofList

theorem read_escape (text : String) :
    read (escape text).toList = (Markup.escape text.toList).map .char := by
  rw [toList_escape]
  exact (reads_escape text.toList).read_eq

theorem quiet_escape (text : String) : Quiet (escape text) where
  reads := by
    rw [read_escape, toList_escape]
    exact reads_escape text.toList
  inert := by
    rw [read_escape]
    exact inert_chars _

theorem literalTags_append (h : Quiet text) (h' : Quiet text') :
    literalTags (text ++ text') = literalTags text ++ literalTags text' := by
  rw [literalTags, (reads_append h.reads h'.reads).read_eq, tags_append]
  rfl

theorem literalTags_escape (text : String) : literalTags (escape text) = [] := by
  rw [literalTags, read_escape, tags_chars]

theorem escape_eq_empty : escape text = "" ↔ text = "" := by
  rw [← String.toList_eq_nil_iff, toList_escape, escape_eq_nil, String.toList_eq_nil_iff]

theorem quiet_empty : Quiet "" := quiet_literal rfl ⟨rfl, fun _ h => absurd h List.not_mem_nil⟩

theorem quiet_literals {texts : List String} {ls : List (List Char)}
    (htexts : List.Forall₂ (fun text l => text.toList = l) texts ls)
    (h : ∀ l ∈ ls, (scan .text l).2 = .text ∧
      ∀ token ∈ (scan .text l).1, Markup.inert cellName token = true) :
    ∀ text ∈ texts, Quiet text := by
  induction htexts with
  | nil => exact fun text htext => absurd htext List.not_mem_nil
  | cons htext _ ih =>
    rw [List.forall_mem_cons] at h ⊢
    exact ⟨quiet_literal htext h.1, ih h.2⟩

theorem quiet_parts : ∀ text ∈ [eyebrowStart, eyebrowEnd, titleStart, subtitleStart, tableStart,
    tableEnd, footerStart, footerEnd, pageEnd], Quiet text :=
  quiet_literals
    (.cons (toList_append_eq String.toList_ofList String.toList_ofList)
    (.cons String.toList_ofList
    (.cons (toList_append_eq String.toList_ofList String.toList_ofList)
    (.cons (toList_append_eq String.toList_ofList String.toList_ofList)
    (.cons (toList_append_eq (toList_append_eq String.toList_ofList String.toList_ofList)
      String.toList_ofList)
    (.cons String.toList_ofList
    (.cons (toList_append_eq String.toList_ofList String.toList_ofList)
    (.cons String.toList_ofList
    (.cons String.toList_ofList .nil)))))))))
    (by decide +kernel)

theorem quiet_eyebrowStart : Quiet eyebrowStart := quiet_parts _ (List.mem_of_getElem? (i := 0) rfl)

theorem quiet_eyebrowEnd : Quiet eyebrowEnd := quiet_parts _ (List.mem_of_getElem? (i := 1) rfl)

theorem quiet_titleStart : Quiet titleStart := quiet_parts _ (List.mem_of_getElem? (i := 2) rfl)

theorem quiet_subtitleStart : Quiet subtitleStart :=
  quiet_parts _ (List.mem_of_getElem? (i := 3) rfl)

theorem quiet_tableStart : Quiet tableStart := quiet_parts _ (List.mem_of_getElem? (i := 4) rfl)

theorem quiet_tableEnd : Quiet tableEnd := quiet_parts _ (List.mem_of_getElem? (i := 5) rfl)

theorem quiet_footerStart : Quiet footerStart := quiet_parts _ (List.mem_of_getElem? (i := 6) rfl)

theorem quiet_footerEnd : Quiet footerEnd := quiet_parts _ (List.mem_of_getElem? (i := 7) rfl)

theorem quiet_pageEnd : Quiet pageEnd := quiet_parts _ (List.mem_of_getElem? (i := 8) rfl)

theorem quiet_block {start stop : String} (hstart : Quiet start) (hstop : Quiet stop)
    (text : String) : Quiet (start ++ escape text ++ stop) :=
  (hstart.append (quiet_escape text)).append hstop

theorem literalTags_block {start stop : String} (hstart : Quiet start) (hstop : Quiet stop)
    (text : String) :
    literalTags (start ++ escape text ++ stop) = literalTags start ++ literalTags stop := by
  rw [literalTags_append (hstart.append (quiet_escape text)) hstop,
    literalTags_append hstart (quiet_escape text), literalTags_escape, List.append_nil]

end Quiet

section Rows

variable {c : Token} {s t : List Token}

def isPair (p q : Token → Bool) : List Token → Bool
  | [a, b] => p a && q b
  | _ => false

/-- A text that is read as two tokens of these kinds, with no tag open. -/
structure ReadsPair (p q : Token → Bool) (text : String) : Prop where
  reads : Reads text.toList (read text.toList)
  tokens : ∃ a b, read text.toList = [a, b] ∧ p a = true ∧ q b = true

theorem readsPair {p q : Token → Bool} {text : String} {l : List Char} (htext : text.toList = l)
    (h : (scan .text l).2 = .text ∧ isPair p q (read l) = true) : ReadsPair p q text := by
  obtain ⟨hclosed, hpair⟩ := h
  subst htext
  refine ⟨reads_of_closed hclosed, ?_⟩
  match hread : read text.toList with
  | [] => rw [hread] at hpair; exact absurd hpair Bool.false_ne_true
  | [_] => rw [hread] at hpair; exact absurd hpair Bool.false_ne_true
  | [a, b] =>
    rw [hread, isPair, Bool.and_eq_true] at hpair
    exact ⟨a, b, rfl, hpair⟩
  | _ :: _ :: _ :: _ => rw [hread] at hpair; exact absurd hpair Bool.false_ne_true

theorem labelStart_pair : ReadsPair (inert cellName) (opens cellName) labelStart :=
  readsPair (toList_append_eq (toList_append_eq String.toList_ofList String.toList_ofList)
    String.toList_ofList) (by decide +kernel)

theorem valueStart_pair : ReadsPair (closes cellName) (opens cellName) valueStart :=
  readsPair (toList_append_eq (toList_append_eq String.toList_ofList String.toList_ofList)
    String.toList_ofList) (by decide +kernel)

theorem rowEnd_pair : ReadsPair (closes cellName) (inert cellName) rowEnd :=
  readsPair String.toList_ofList (by decide)

theorem elements_cons_of_closes (h : closes cellName c = true) :
    elements cellName (c :: t) = elements cellName t := by
  cases c with
  | char _ => exact absurd h Bool.false_ne_true
  | tag content =>
    have hcontent : content = '/' :: cellName := of_decide_eq_true h
    rw [hcontent]
    rfl

def rowTokens (field : String × String) : List Token :=
  read labelStart.toList ++ (Markup.escape field.1.toList).map .char ++ read valueStart.toList ++
    field.2.toList.flatMap shown ++ read rowEnd.toList

theorem toList_value (value : String) :
    (replace '\n' "<br/>" (escape value)).toList = breaks (Markup.escape value.toList) := by
  have htag : "<br/>".toList = ['<', 'b', 'r', '/', '>'] := String.toList_ofList
  rw [replace, String.toList_ofList, toList_escape, htag]
  rfl

theorem reads_rowHtml (label value : String) :
    Reads (rowHtml label value).toList (rowTokens (label, value)) := by
  have hlabel : Reads (escape label).toList ((Markup.escape label.toList).map .char) := by
    rw [toList_escape]
    exact reads_escape label.toList
  have hvalue : Reads (replace '\n' "<br/>" (escape value)).toList
      (value.toList.flatMap shown) := by
    rw [toList_value]
    exact reads_breaks_escape value.toList
  exact reads_append (reads_append (reads_append (reads_append labelStart_pair.reads hlabel)
    valueStart_pair.reads) hvalue) rowEnd_pair.reads

theorem elements_rowTokens (field : String × String) :
    elements cellName (rowTokens field ++ t) =
      (Markup.escape field.1.toList).map .char :: field.2.toList.flatMap shown ::
        elements cellName t := by
  obtain ⟨a, b, hlabelStart, ha, hb⟩ := labelStart_pair.tokens
  obtain ⟨c, d, hvalueStart, hc, hd⟩ := valueStart_pair.tokens
  obtain ⟨e, f, hrowEnd, he, hf⟩ := rowEnd_pair.tokens
  have hrow : rowTokens field ++ t = a :: b :: ((Markup.escape field.1.toList).map .char ++
      c :: d :: (field.2.toList.flatMap shown ++ e :: f :: t)) := by
    rw [rowTokens, hlabelStart, hvalueStart, hrowEnd]
    simp only [List.append_assoc, List.cons_append, List.nil_append]
  rw [hrow, elements_cons_of_inert ha, elements_element hb hc (inert_chars _),
    elements_cons_of_closes hc, elements_element hd he (inert_shown rfl _),
    elements_cons_of_closes he, elements_cons_of_inert hf]

theorem tags_rowTokens (field : String × String) :
    tags (rowTokens field) = rowTags (field.2.toList.count '\n') := by
  rw [rowTokens, tags_append, tags_append, tags_append, tags_append, tags_chars, tags_shown,
    List.append_nil]
  rfl

theorem reads_rows (fields : List (String × String)) :
    Reads (String.join (fields.map fun field => rowHtml field.1 field.2)).toList
      (fields.flatMap rowTokens) := by
  rw [String.toList_join, List.flatMap_map]
  induction fields with
  | nil => exact reads_nil
  | cons field fields ih =>
    rw [List.flatMap_cons, List.flatMap_cons]
    exact (reads_rowHtml field.1 field.2).append ih

theorem elements_rows (fields : List (String × String)) :
    elements cellName (fields.flatMap rowTokens ++ t) =
      (fields.flatMap fun field => [(Markup.escape field.1.toList).map .char,
        field.2.toList.flatMap shown]) ++ elements cellName t := by
  induction fields with
  | nil => rfl
  | cons field fields ih =>
    rw [List.flatMap_cons, List.append_assoc, elements_rowTokens, ih, List.flatMap_cons]
    rfl

theorem tags_rows (fields : List (String × String)) : tags (fields.flatMap rowTokens) =
    (fields.map fun field => field.2.toList.count '\n').flatMap rowTags := by
  induction fields with
  | nil => rfl
  | cons field fields ih =>
    rw [List.flatMap_cons, tags_append, tags_rowTokens, ih, List.map_cons, List.flatMap_cons]

end Rows

section Header

/-- The cells above the fields, of which the first has the logo in it. -/
theorem header_cells {start stop rest value : String} {a b d : List Char} {n : ℕ} (ha : start.toList = a)
    (hb : stop.toList = b) (hd : rest.toList = d) (hvalue : '\"' ∉ value.toList)
    (hattribute : (scan .text a).2 = .tag (some '\"') (scan .text a).2.content)
    (himage : (scan .text a).2.content.head? = some 'i')
    (hends : endsTag (some '\"') b = true) (hclosed : (scan .text d).2 = .text)
    (hbalanced : balanced cellName ((scan .text a).1 ++ read d) = true)
    (hcount : (elements cellName ((scan .text a).1 ++ read d)).length = n) :
    ∃ tokens, Reads (start ++ value ++ stop ++ rest).toList tokens ∧
      balanced cellName tokens = true ∧ (elements cellName tokens).length = n := by
  obtain ⟨l, hl⟩ := List.head?_eq_some_iff.mp himage
  have hinert : inert cellName
      (.tag ((scan .text a).2.content ++ value.toList ++ b.dropLast)) = true := by
    rw [hl]
    rfl
  have himg : Reads (start ++ value ++ stop).toList ((scan .text a).1 ++
      [.tag ((scan .text a).2.content ++ value.toList ++ b.dropLast)]) := by
    rw [String.toList_append, String.toList_append, ha, hb]
    exact reads_attribute (Prod.ext rfl hattribute) hvalue hends
  have hrest : Reads rest.toList (read d) := by
    rw [hd]
    exact reads_of_closed hclosed
  refine ⟨_, reads_append himg hrest, ?_, ?_⟩
  · rw [List.append_assoc, List.singleton_append, balanced_insert hinert]
    exact hbalanced
  · rw [List.append_assoc, List.singleton_append, length_elements_insert hinert]
    exact hcount

theorem quote_not_mem_escape (text : String) : '\"' ∉ (escape text).toList := by
  rw [toList_escape]
  exact fun h => (mem_escape h).2.2.1 rfl

theorem header_reads (baseUrl : String) :
    Reads (header baseUrl).toList (read (header baseUrl).toList) ∧
      balanced cellName (read (header baseUrl).toList) = true ∧
      (elements cellName (read (header baseUrl).toList)).length = 3 := by
  have hcells : ∃ tokens, Reads (header baseUrl).toList tokens ∧
      balanced cellName tokens = true ∧ (elements cellName tokens).length = 3 :=
    header_cells (toList_append_eq (toList_append_eq (toList_append_eq (toList_append_eq
      (toList_append_eq (toList_append_eq String.toList_ofList String.toList_ofList)
        String.toList_ofList) String.toList_ofList) String.toList_ofList) String.toList_ofList)
      String.toList_ofList) (toList_append_eq String.toList_ofList String.toList_ofList)
      (toList_append_eq (toList_append_eq String.toList_ofList String.toList_ofList)
        String.toList_ofList) (quote_not_mem_escape _) (by decide +kernel) (by decide +kernel)
      (by decide +kernel) (by decide +kernel) (by decide +kernel) (by decide +kernel)
  obtain ⟨tokens, hreads, hbalanced, hlength⟩ := hcells
  have hread := hreads.read_eq
  exact ⟨hread ▸ hreads, hread ▸ hbalanced, hread ▸ hlength⟩

end Header

/-- An email is read with no tag open, with the tags of its shape, and with the labels and the values
that it was given in the cells behind the three of its header. -/
structure Shows (unicode : UnicodeText) (baseUrl : String) (email : Email) (html : String) :
    Prop where
  closed : Reads html.toList (read html.toList)
  tags : tags (read html.toList) = layout baseUrl email.shape
  cells : ((elements cellName (read html.toList)).drop 3).map shownText =
    email.fields.flatMap fun field =>
      [(humanizeFieldLabel unicode field.1).toList, field.2.toList]

section Email

variable (unicode : UnicodeText) (baseUrl : String) (email : Email)

def eyebrowHtml : String :=
  if escape (strip (email.eyebrow.getD "")) ≠ "" then
    eyebrowStart ++ escape (strip (email.eyebrow.getD "")) ++ eyebrowEnd
  else ""

def footerHtml : String :=
  if strip (email.footer.getD "") ≠ "" then
    footerStart ++ escape (strip (email.footer.getD "")) ++ footerEnd
  else ""

/-- The fields with their labels as they are shown. -/
def normalizedFields : List (String × String) :=
  email.fields.map fun field => (humanizeFieldLabel unicode field.1, field.2)

theorem quiet_eyebrowHtml : Quiet (eyebrowHtml email) := by
  unfold eyebrowHtml
  split
  · exact quiet_block quiet_eyebrowStart quiet_eyebrowEnd _
  · exact quiet_empty

theorem quiet_footerHtml : Quiet (footerHtml email) := by
  unfold footerHtml
  split
  · exact quiet_block quiet_footerStart quiet_footerEnd _
  · exact quiet_empty

theorem literalTags_eyebrowHtml : literalTags (eyebrowHtml email) =
    if email.shape.eyebrowBlank then [] else literalTags eyebrowStart ++ literalTags eyebrowEnd := by
  unfold eyebrowHtml Email.shape
  by_cases hblank : strip (email.eyebrow.getD "") = ""
  · have hescape := escape_eq_empty.mpr hblank
    rw [if_neg (fun h => h hescape), if_pos (decide_eq_true hblank)]
    rfl
  · have hescape := fun h => hblank (escape_eq_empty.mp h)
    rw [if_pos hescape, if_neg (fun h => hblank (of_decide_eq_true h))]
    exact literalTags_block quiet_eyebrowStart quiet_eyebrowEnd _

theorem literalTags_footerHtml : literalTags (footerHtml email) =
    if email.shape.footerBlank then [] else literalTags footerStart ++ literalTags footerEnd := by
  unfold footerHtml Email.shape
  by_cases hblank : strip (email.footer.getD "") = ""
  · rw [if_neg (fun h => h hblank), if_pos (decide_eq_true hblank)]
    rfl
  · rw [if_pos hblank, if_neg (fun h => hblank (of_decide_eq_true h))]
    exact literalTags_block quiet_footerStart quiet_footerEnd _

/-- What an email is read as, piece by piece. -/
def emailTokens : List Token :=
  read (header baseUrl).toList ++ read (eyebrowHtml email).toList ++ read titleStart.toList ++
    read (escape email.title).toList ++ read subtitleStart.toList ++
    read (escape email.subtitle).toList ++ read tableStart.toList ++
    (normalizedFields unicode email).flatMap rowTokens ++ read tableEnd.toList ++
    read (footerHtml email).toList ++ read pageEnd.toList

theorem reads_renderBaseEmail :
    Reads (renderBaseEmail unicode baseUrl email).html.toList
      (emailTokens unicode baseUrl email) := by
  have hheader := (header_reads baseUrl).1
  have hrows := reads_rows (normalizedFields unicode email)
  have habove := reads_append (reads_append (reads_append (reads_append (reads_append (reads_append
    hheader (quiet_eyebrowHtml email).reads) quiet_titleStart.reads) (quiet_escape email.title).reads)
      quiet_subtitleStart.reads) (quiet_escape email.subtitle).reads) quiet_tableStart.reads
  exact reads_append (reads_append (reads_append (reads_append habove hrows)
    quiet_tableEnd.reads) (quiet_footerHtml email).reads) quiet_pageEnd.reads

theorem tags_emailTokens :
    tags (emailTokens unicode baseUrl email) = layout baseUrl email.shape := by
  have hnewlines : ((normalizedFields unicode email).map fun field =>
      field.2.toList.count '\n') = email.shape.newlines := by
    rw [normalizedFields, List.map_map]
    rfl
  have htitle : tags (read (escape email.title).toList) = [] := literalTags_escape _
  have hsubtitle : tags (read (escape email.subtitle).toList) = [] := literalTags_escape _
  unfold emailTokens layout
  simp only [tags_append, htitle, hsubtitle, List.append_nil, tags_rows, hnewlines]
  rw [← literalTags_eyebrowHtml, ← literalTags_footerHtml]
  rfl

theorem elements_emailTokens : (elements cellName (emailTokens unicode baseUrl email)).drop 3 =
    (normalizedFields unicode email).flatMap fun field =>
      [(Markup.escape field.1.toList).map .char, field.2.toList.flatMap shown] := by
  obtain ⟨-, hbalanced, hlength⟩ := header_reads baseUrl
  unfold emailTokens
  simp only [List.append_assoc]
  rw [elements_append hbalanced, ← hlength, List.drop_left,
    elements_of_inert (quiet_eyebrowHtml email).inert, elements_of_inert quiet_titleStart.inert,
    elements_of_inert (quiet_escape email.title).inert,
    elements_of_inert quiet_subtitleStart.inert,
    elements_of_inert (quiet_escape email.subtitle).inert,
    elements_of_inert quiet_tableStart.inert, elements_rows,
    elements_of_inert quiet_tableEnd.inert, elements_of_inert (quiet_footerHtml email).inert]
  have hend : elements cellName (read pageEnd.toList) = [] := by
    rw [← List.append_nil (read pageEnd.toList), elements_of_inert quiet_pageEnd.inert]
    rfl
  rw [hend, List.append_nil]

theorem shows_renderBaseEmail :
    Shows unicode baseUrl email (renderBaseEmail unicode baseUrl email).html := by
  have hreads := reads_renderBaseEmail unicode baseUrl email
  have hread := hreads.read_eq
  refine ⟨hread ▸ hreads, ?_, ?_⟩
  · rw [hread]
    exact tags_emailTokens unicode baseUrl email
  · rw [hread, elements_emailTokens, List.map_flatMap, normalizedFields, List.flatMap_map]
    apply List.flatMap_congr
    intro field _
    rw [List.map_cons, List.map_singleton, shownText_chars, shownText_shown]

end Email

/-- No text of an email gets into its markup: not those of any email, and not those of the payloads
that the templates of alerts are given, unless a time in them makes both raise. -/
theorem email_not_injected (unicode : UnicodeText) (baseUrl : String) :
    (∀ email, Shows unicode baseUrl email (renderBaseEmail unicode baseUrl email).html) ∧
    ∀ {ν : Type} (values : PayloadValues ν) (payload : Fields ν),
      Option.Rel (fun email message => Shows unicode baseUrl email message.html)
        (incidentWarn unicode values payload)
        (renderIncidentWarn unicode baseUrl values payload) ∧
      Option.Rel (fun email message => Shows unicode baseUrl email message.html)
        (protectionBlock unicode values payload)
        (renderProtectionBlock unicode baseUrl values payload) := by
  have hbase := shows_renderBaseEmail unicode baseUrl
  refine ⟨hbase, fun values payload => ⟨?_, ?_⟩⟩
  · unfold renderIncidentWarn
    cases incidentWarn unicode values payload with
    | none => exact .none
    | some email => exact .some (hbase email)
  · unfold renderProtectionBlock
    cases protectionBlock unicode values payload with
    | none => exact .none
    | some email => exact .some (hbase email)

end Rheonic.EmailTemplates
