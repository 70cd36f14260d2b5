import RecordGraph.Proofs.Dictionary
import RecordGraph.Proofs.Document.Literal
/-! Values are read back from their texts. A number, a string and a member have to be told from their own text;
lists and objects of such values are read back then, whatever stands apart from them. -/

namespace RecordGraph

namespace WireValue

open Document

/-- A value whose text says what it is, as the texts of its numbers, strings and members do each alone. Octets are
left out: their text is that of a list of numbers. -/
inductive Legible : WireValue → Prop
  | null : Legible .null
  | bool (value : Bool) : Legible (.bool value)
  | number {n : WireNumber} (h : literal? false 1 n.text.toList = some (.number n, [])) : Legible (.number n)
  | string {s : String} (h : literal? false 1 (quote s).toList = some (.string s, [])) : Legible (.string s)
  | member {name : String} (h : literal? false 1 name.toList = some (.member name, [])) : Legible (.member name)
  | list {items : List WireValue} (h : ∀ v ∈ items, Legible v) : Legible (.list items)
  | object {fields : List (String × WireValue)} (hdistinct : (fields.map Prod.fst).Nodup)
      (hnames : ∀ f ∈ fields, IsName f.1) (h : ∀ f ∈ fields, Legible f.2) : Legible (.object fields)

variable {v : WireValue} {items : List WireValue} {field : String × WireValue}
  {fields : List (String × WireValue)} {rest : List Char} {c : Char} {fuel : Nat}
  {lookUp : String → Option WireValue}

section Values

theorem itemValues_ofItems (h : ∀ v ∈ items, (Literal.ofWire v).value lookUp = .ok v) :
    Literal.itemValues lookUp (Literal.ofItems items) = .ok items := by
  induction items with
  | nil => rfl
  | cons v items ih =>
    rw [Literal.ofItems, Literal.itemValues, h v List.mem_cons_self, ih fun w hw => h w (List.mem_cons_of_mem v hw)]
    rfl

theorem fieldValues_ofFields (h : ∀ f ∈ fields, (Literal.ofWire f.2).value lookUp = .ok f.2) :
    Literal.fieldValues lookUp (Literal.ofFields fields) = .ok fields := by
  induction fields with
  | nil => rfl
  | cons f fields ih =>
    rw [Literal.ofFields, Literal.fieldValues, h f List.mem_cons_self, ih fun g hg => h g (List.mem_cons_of_mem f hg)]
    rfl

/-- The literal of a value stands for the value. -/
theorem Legible.value_ofWire (h : Legible v) (lookUp : String → Option WireValue) :
    (Literal.ofWire v).value lookUp = .ok v := by
  induction h with
  | null | bool | number | string | member => rfl
  | list h ih =>
    rw [Literal.ofWire, Literal.value, itemValues_ofItems ih]
    rfl
  | object hdistinct hnames h ih =>
    rw [Literal.ofWire, Literal.value, fieldValues_ofFields ih]
    rfl

end Values

section Lists

/-- The text of a value is read as the literal of the value, whatever stands apart from it. -/
def ReadsBack (v : WireValue) : Prop :=
  ∀ {fuel : Nat} {rest : List Char}, v.text.toList.length < fuel → Apart rest →
    literal? false fuel (v.text.toList ++ rest) = some (Literal.ofWire v, rest)

/-- Texts, each after a comma. -/
def following (texts : List String) : List Char := texts.flatMap fun t => ',' :: ' ' :: t.toList

theorem following_cons (text : String) (texts : List String) :
    following (text :: texts) = ',' :: ' ' :: (text.toList ++ following texts) := rfl

theorem toList_intercalate (first : String) (texts : List String) :
    (", ".intercalate (first :: texts)).toList = first.toList ++ following texts := by
  rw [String.toList_intercalate]
  induction texts generalizing first with
  | nil =>
    rw [List.map_cons, List.map_nil, List.intercalate_singleton, following, List.flatMap_nil, List.append_nil]
  | cons second texts ih =>
    rw [List.map_cons, List.map_cons, List.intercalate_cons_cons, ← List.map_cons, ih second, following_cons,
      List.append_assoc]
    rfl

theorem apart_following (texts : List String) (hc : c ∈ closing) : Apart (following texts ++ c :: rest) := by
  cases texts with
  | nil => exact apart_closing hc
  | cons text texts => exact apart_cons (by decide)

/-- The items behind the first one of a list. -/
theorem literals_following (h : ∀ v ∈ items, ReadsBack v) (hfuel : (following (itemTexts items)).length ≤ fuel) :
    literals false fuel (following (itemTexts items) ++ ']' :: rest) = (Literal.ofItems items, ']' :: rest) := by
  induction items generalizing fuel with
  | nil => exact literals_eq_nil false fuel rfl (by decide)
  | cons v items ih =>
    rw [itemTexts, following_cons, List.length_cons, List.length_cons, List.length_append] at hfuel
    obtain ⟨fuel, rfl⟩ : ∃ n, fuel = n + 1 := ⟨fuel - 1, by omega⟩
    have hfirst : literal? false fuel
        (',' :: ' ' :: (v.text.toList ++ (following (itemTexts items) ++ ']' :: rest))) =
          some (Literal.ofWire v, following (itemTexts items) ++ ']' :: rest) := by
      rw [literal?_comma, literal?_space]
      exact h v List.mem_cons_self (by omega) (apart_following _ (by decide))
    rw [itemTexts, following_cons, List.cons_append, List.cons_append, List.append_assoc, literals_cons hfirst,
      ih (fun w hw => h w (List.mem_cons_of_mem v hw)) (by omega)]
    rfl

/-- All items of a list. -/
theorem literals_texts (h : ∀ v ∈ items, ReadsBack v)
    (hfuel : (", ".intercalate (itemTexts items)).toList.length + 1 < fuel) :
    literals false fuel ((", ".intercalate (itemTexts items)).toList ++ ']' :: rest) =
      (Literal.ofItems items, ']' :: rest) := by
  cases items with
  | nil => exact literals_eq_nil false fuel rfl (by decide)
  | cons v items =>
    rw [itemTexts, toList_intercalate, List.length_append] at hfuel
    obtain ⟨fuel, rfl⟩ : ∃ n, fuel = n + 1 := ⟨fuel - 1, by omega⟩
    have hfirst : literal? false fuel (v.text.toList ++ (following (itemTexts items) ++ ']' :: rest)) =
        some (Literal.ofWire v, _) := h v List.mem_cons_self (by omega) (apart_following _ (by decide))
    rw [itemTexts, toList_intercalate, List.append_assoc, literals_cons hfirst,
      literals_following (fun w hw => h w (List.mem_cons_of_mem v hw)) (by omega)]
    rfl

theorem readsBack_list (h : ∀ v ∈ items, ReadsBack v) : ReadsBack (.list items) := by
  intro fuel rest hfuel hrest
  have htext : (text (.list items)).toList = '[' :: ((", ".intercalate (itemTexts items)).toList ++ [']']) := by
    rw [text, String.toList_append, String.toList_append]
    rfl
  rw [htext, List.length_cons, List.length_append, List.length_singleton] at hfuel
  obtain ⟨fuel, rfl⟩ : ∃ n, fuel = n + 1 := ⟨fuel - 1, by omega⟩
  rw [htext, List.cons_append, List.append_assoc]
  exact literal?_list (literals_texts h (by omega))

end Lists

section Fields

/-- A value after its name. -/
def fieldText (field : String × WireValue) : String := field.1 ++ ": " ++ field.2.text

/-- The literal of a value under its name. -/
def fieldLiteral (field : String × WireValue) : String × Literal := (field.1, Literal.ofWire field.2)

/-- Whether a value under a name is read back. -/
def FieldReadsBack (field : String × WireValue) : Prop := IsName field.1 ∧ ReadsBack field.2

theorem fieldTexts_eq (fields : List (String × WireValue)) : fieldTexts fields = fields.map fieldText := by
  induction fields with
  | nil => rfl
  | cons field fields ih =>
    obtain ⟨name, value⟩ := field
    rw [fieldTexts, ih]
    rfl

theorem ofFields_eq (fields : List (String × WireValue)) : Literal.ofFields fields = fields.map fieldLiteral := by
  induction fields with
  | nil => rfl
  | cons field fields ih =>
    obtain ⟨name, value⟩ := field
    rw [Literal.ofFields, ih]
    rfl

theorem toList_fieldText (field : String × WireValue) :
    (fieldText field).toList = field.1.toList ++ ':' :: ' ' :: field.2.text.toList := by
  rw [fieldText, String.toList_append, String.toList_append, List.append_assoc]
  rfl

/-- A value under its name is read where it starts, after blanks and commas. -/
theorem namedLiterals_field {text : List Char} (h : FieldReadsBack field)
    (htext : skip text = skip ((fieldText field).toList ++ rest))
    (hfuel : (fieldText field).toList.length ≤ fuel) (hrest : Apart rest) :
    namedLiterals false (fuel + 1) text =
      (fieldLiteral field :: (namedLiterals false fuel rest).1, (namedLiterals false fuel rest).2) := by
  rw [toList_fieldText, List.length_append, List.length_cons, List.length_cons] at hfuel
  rw [toList_fieldText, List.append_assoc] at htext
  have hname : name? text = some (field.1, ':' :: ' ' :: (field.2.text.toList ++ rest)) := by
    rw [name?, htext]
    exact name?_of_isName h.1 (apart_cons (by decide))
  have hvalue : literal? false fuel (' ' :: (field.2.text.toList ++ rest)) = some (Literal.ofWire field.2, rest) := by
    rw [literal?_space]
    exact h.2 (by omega) hrest
  exact namedLiterals_cons hname hvalue

/-- The fields behind the first one of an object. -/
theorem namedLiterals_following (h : ∀ f ∈ fields, FieldReadsBack f) (hc : c ∈ closing)
    (hfuel : (following (fields.map fieldText)).length ≤ fuel) :
    namedLiterals false fuel (following (fields.map fieldText) ++ c :: rest) =
      (fields.map fieldLiteral, c :: rest) := by
  induction fields generalizing fuel with
  | nil => exact namedLiterals_eq_nil false fuel (skip_closing hc) hc
  | cons field fields ih =>
    rw [List.map_cons, following_cons, List.length_cons, List.length_cons, List.length_append] at hfuel
    obtain ⟨fuel, rfl⟩ : ∃ n, fuel = n + 1 := ⟨fuel - 1, by omega⟩
    rw [List.map_cons, following_cons, List.cons_append, List.cons_append, List.append_assoc,
      namedLiterals_field (h field List.mem_cons_self) (skip_comma.trans skip_space) (by omega) (apart_following _ hc),
      ih (fun f hf => h f (List.mem_cons_of_mem field hf)) (by omega)]
    rfl

/-- All fields of an object, and all arguments of a field. -/
theorem namedLiterals_texts (h : ∀ f ∈ fields, FieldReadsBack f) (hc : c ∈ closing)
    (hfuel : (", ".intercalate (fields.map fieldText)).toList.length + 1 < fuel) :
    namedLiterals false fuel ((", ".intercalate (fields.map fieldText)).toList ++ c :: rest) =
      (fields.map fieldLiteral, c :: rest) := by
  cases fields with
  | nil => exact namedLiterals_eq_nil false fuel (skip_closing hc) hc
  | cons field fields =>
    rw [List.map_cons, toList_intercalate, List.length_append] at hfuel
    obtain ⟨fuel, rfl⟩ : ∃ n, fuel = n + 1 := ⟨fuel - 1, by omega⟩
    rw [List.map_cons, toList_intercalate, List.append_assoc,
      namedLiterals_field (h field List.mem_cons_self) rfl (by omega) (apart_following _ hc),
      namedLiterals_following (fun f hf => h f (List.mem_cons_of_mem field hf)) hc (by omega)]
    rfl

theorem readsBack_object (hdistinct : (fields.map Prod.fst).Nodup) (h : ∀ f ∈ fields, FieldReadsBack f) :
    ReadsBack (.object fields) := by
  intro fuel rest hfuel hrest
  have htext : (text (.object fields)).toList =
      '\x7b' :: ((", ".intercalate (fields.map fieldText)).toList ++ ['\x7d']) := by
    rw [text, fieldTexts_eq, String.toList_append, String.toList_append]
    rfl
  rw [htext, List.length_cons, List.length_append, List.length_singleton] at hfuel
  obtain ⟨fuel, rfl⟩ : ∃ n, fuel = n + 1 := ⟨fuel - 1, by omega⟩
  have hpairs : Entries.ofPairs (fields.map fieldLiteral) = Literal.ofFields fields := by
    rw [ofFields_eq]
    exact Entries.ofPairs_of_nodup (by rwa [List.map_map])
  rw [htext, List.cons_append, List.append_assoc, Literal.ofWire, ← hpairs]
  exact literal?_object (namedLiterals_texts h (by decide) (by omega))

end Fields

/-- A value that is read from its text alone is read back before what stands apart. -/
theorem readsBack_of_read (v : WireValue)
    (h : literal? false 1 v.text.toList = some (Literal.ofWire v, [])) : ReadsBack v := by
  intro fuel rest hfuel hrest
  obtain ⟨fuel, rfl⟩ : ∃ n, fuel = n + 1 := ⟨fuel - 1, by omega⟩
  exact literal?_append h hrest

/-- The text of a legible value is read back. -/
theorem Legible.readsBack (h : Legible v) : ReadsBack v := by
  induction h with
  | null => exact readsBack_of_read .null rfl
  | bool b => cases b <;> exact readsBack_of_read (.bool _) rfl
  | @number n h => exact readsBack_of_read (.number n) h
  | @string s h => exact readsBack_of_read (.string s) h
  | @member name h => exact readsBack_of_read (.member name) h
  | list h ih => exact readsBack_list ih
  | object hdistinct hnames h ih => exact readsBack_object hdistinct fun f hf => ⟨hnames f hf, ih f hf⟩

section Leaves

/-- A character that is written as itself, or with a letter after a backslash. -/
def isPlain (c : Char) : Bool := !isControl c || c == '\r' || c == '\n' || c == '\t'

theorem lineBody?_escapeChar (hc : isPlain c = true) (text : List Char) :
    lineBody? ((escapeChar c).toList ++ text) =
      (lineBody? text).map fun (body, rest) => (c :: body, rest) := by
  unfold escapeChar
  split
  · exact lineBody?_escaped rfl
  · exact lineBody?_escaped rfl
  · exact lineBody?_escaped rfl
  · exact lineBody?_escaped rfl
  · exact lineBody?_escaped rfl
  · rename_i hreturn hline htab hquote hslash
    have hplain : isControl c = false := by
      simp only [isPlain, Bool.or_eq_true, Bool.not_eq_true', beq_iff_eq] at hc
      exact ((hc.resolve_right htab).resolve_right hline).resolve_right hreturn
    have hend : isLineEnd c = false := by
      simp only [isLineEnd, Bool.or_eq_false_iff, beq_eq_false_iff_ne]
      exact ⟨hline, hreturn⟩
    rw [hplain, if_neg Bool.false_ne_true, Char.toString, String.toList_singleton, List.singleton_append]
    exact lineBody?_cons hquote hslash hend

theorem toList_quote (s : String) :
    (quote s).toList = '"' :: (s.toList.flatMap (fun c => (escapeChar c).toList) ++ ['"']) := by
  rw [quote, String.toList_append, String.toList_append, String.toList_join, List.flatMap_map]
  rfl

theorem lineBody?_quote {chars : List Char} (h : ∀ c ∈ chars, isPlain c = true) (rest : List Char) :
    lineBody? (chars.flatMap (fun c => (escapeChar c).toList) ++ '"' :: rest) = some (chars, rest) := by
  induction chars with
  | nil => rfl
  | cons c chars ih =>
    rw [List.flatMap_cons, List.append_assoc, lineBody?_escapeChar (h c List.mem_cons_self),
      ih fun d hd => h d (List.mem_cons_of_mem c hd)]
    rfl

theorem escapeChar_starts (c : Char) : ∃ d more, (escapeChar c).toList = d :: more ∧ d ≠ '"' := by
  unfold escapeChar
  split
  · exact ⟨'\\', _, rfl, by decide⟩
  · exact ⟨'\\', _, rfl, by decide⟩
  · exact ⟨'\\', _, rfl, by decide⟩
  · exact ⟨'\\', _, rfl, by decide⟩
  · exact ⟨'\\', _, rfl, by decide⟩
  · rename_i hquote _
    split
    · exact ⟨'\\', _, by rw [String.append_assoc, String.toList_append]; rfl, by decide⟩
    · exact ⟨c, [], String.toList_singleton c, hquote⟩

/-- A string opens no block: behind its first quote stand an escape, a character or one more quote only. -/
theorem quoted_ne_block (chars inner : List Char) :
    chars.flatMap (fun c => (escapeChar c).toList) ++ ['"'] ≠ '"' :: '"' :: inner := by
  cases chars with
  | nil => nofun
  | cons c chars =>
    obtain ⟨d, more, hescape, hd⟩ := escapeChar_starts c
    rw [List.flatMap_cons, hescape]
    exact fun heq => hd (List.cons.inj heq).1

/-- A string is told from its text, if it holds no control characters but ends of lines and tabs. -/
theorem legible_string {s : String} (h : s.toList.all isPlain = true) : Legible (.string s) := by
  refine .string ?_
  have hskip (text : List Char) : skip ('"' :: text) = '"' :: text := rfl
  rw [toList_quote, literal?, hskip]
  simp only [stringHere?_quote (quoted_ne_block s.toList), lineBody?_quote (List.all_eq_true.mp h), Option.map_some,
    String.ofList_toList]

/-- A member is told from its text, if it is a name that does not start like a truth value or like null. -/
theorem legible_member {name : String} (h : IsName name)
    (hword : ∀ word ∈ ["true", "false", "null"], ¬ word.toList <+: name.toList) : Legible (.member name) := by
  refine .member ?_
  obtain ⟨c, more, hname, hc, -⟩ := h.toList_eq
  have hskip : skip name.toList = c :: more := by
    rw [hname]
    exact skip_of_isNameStart hc
  have hno {word : String} (hmem : word ∈ ["true", "false", "null"]) : word? word name.toList = none := by
    rw [word?, hskip, ← hname]
    exact if_neg fun hprefix => hword word hmem (List.isPrefixOf_iff_prefix.mp hprefix)
  have hread : name? (name.toList ++ []) = some (name, []) := name?_of_isName h apart_nil
  rw [List.append_nil] at hread
  rw [literal?_of_isNameStart false 0 hskip hc, ← hname, wordLiteral?, hno (by decide),
    hno (by decide), hno (by decide), hread]
  rfl

end Leaves

end WireValue

end RecordGraph
