import RecordGraph.Client.Document
import RecordGraph.Proofs.Document.Selection
import RecordGraph.Proofs.Value.Legible
/-! Fields written by a client are read back. A field is read up to the blank behind it, with its other name, its
arguments and its selections; where there are too many selection sets inside each other, its selections are left. -/

namespace RecordGraph

namespace Client

open Document

namespace WantedField

/-- The names of a field, of its arguments and of the fields below it are names of the grammar, and the values of
the arguments are told from their texts. -/
inductive Legible : WantedField → Prop
  | mk {definition : FieldDescription} {label : Option String} {arguments : Entries WireValue}
      {below : List WantedField} (hname : IsName definition.name) (hlabel : ∀ l ∈ label, IsName l)
      (hnames : ∀ a ∈ arguments, IsName a.1) (hvalues : ∀ a ∈ arguments, a.2.Legible)
      (hbelow : ∀ f ∈ below, Legible f) : Legible (.mk definition label arguments below)

/-- The text of a field without its selections. -/
def head (name : String) (label : Option String) (arguments : Entries WireValue) : String :=
  aliasText label ++ name ++ argumentText arguments

section Head

variable {name : String} {label : Option String} {arguments : Entries WireValue} {rest : List Char}
  {fuel sets : Nat}

/-- Arguments stand in parentheses, if there are any. -/
theorem toList_argumentText (arguments : Entries WireValue) (h : arguments ≠ []) :
    (argumentText arguments).toList =
      '(' :: ((", ".intercalate (arguments.map WireValue.fieldText)).toList ++ [')']) := by
  rw [argumentText, List.isEmpty_eq_false_iff.mpr h, if_neg Bool.false_ne_true, String.toList_append,
    String.toList_append]
  rfl

theorem apart_argumentText (arguments : Entries WireValue) (hrest : Behind rest) :
    Apart ((argumentText arguments).toList ++ rest) := by
  by_cases hempty : arguments = []
  · subst hempty
    exact hrest.apart
  · rw [toList_argumentText arguments hempty]
    exact apart_cons (by decide)

theorem skip_argumentText (arguments : Entries WireValue) (hrest : Behind rest) :
    ∃ c more, skip ((argumentText arguments).toList ++ rest) = c :: more ∧ c ≠ ':' := by
  by_cases hempty : arguments = []
  · subst hempty
    obtain ⟨c, more, hskip, hc, -⟩ := hrest.skip_eq
    exact ⟨c, more, hskip, hc⟩
  · rw [toList_argumentText arguments hempty]
    exact ⟨'(', _, rfl, by decide⟩

/-- The arguments of a field are read, if there are any. -/
theorem arguments_argumentText (h : ∀ a ∈ arguments, WireValue.FieldReadsBack a)
    (hfuel : (argumentText arguments).toList.length ≤ fuel) (hrest : Behind rest) :
    Document.arguments fuel ((argumentText arguments).toList ++ rest) =
      (arguments.map WireValue.fieldLiteral, rest) := by
  by_cases hempty : arguments = []
  · subst hempty
    obtain ⟨c, more, hskip, -, hc, -⟩ := hrest.skip_eq
    exact arguments_eq_nil hskip hc
  · rw [toList_argumentText arguments hempty, List.length_cons, List.length_append, List.length_singleton] at hfuel
    have hopen (inner : List Char) : symbol? '(' ('(' :: inner) = some inner := rfl
    have hclose : symbol? ')' (')' :: rest) = some rest := rfl
    have hgiven : (arguments.map WireValue.fieldLiteral).isEmpty = false := by
      rwa [List.isEmpty_eq_false_iff, ne_eq, List.map_eq_nil_iff]
    have hinner : namedLiterals false fuel
        ((", ".intercalate (arguments.map WireValue.fieldText)).toList ++ ')' :: rest) =
          (arguments.map WireValue.fieldLiteral, ')' :: rest) :=
      WireValue.namedLiterals_texts h (by decide) (by omega)
    rw [toList_argumentText arguments hempty, List.cons_append, List.append_assoc, List.singleton_append]
    simp only [Document.arguments, hopen, hinner, hclose, hgiven, Option.bind_eq_bind, Option.bind_some,
      Bool.false_eq_true, if_false]
    rfl

theorem toList_head_none (name : String) (arguments : Entries WireValue) :
    (head name none arguments).toList = name.toList ++ (argumentText arguments).toList := by
  rw [head, aliasText, String.empty_append, String.toList_append]

theorem toList_head_some (name label : String) (arguments : Entries WireValue) :
    (head name (some label) arguments).toList =
      label.toList ++ ':' :: ' ' :: (name.toList ++ (argumentText arguments).toList) := by
  rw [head, aliasText, String.append_assoc, String.append_assoc, String.toList_append, String.toList_append,
    String.toList_append]
  rfl

/-- The text of a field starts like a name. -/
theorem head_starts (hname : IsName name) (hlabel : ∀ l ∈ label, IsName l) (arguments : Entries WireValue) :
    ∃ c more, (head name label arguments).toList = c :: more ∧ isNameStart c = true := by
  cases label with
  | none =>
    obtain ⟨c, more, htext, hc, -⟩ := hname.toList_eq
    rw [toList_head_none, htext]
    exact ⟨c, _, rfl, hc⟩
  | some label =>
    obtain ⟨c, more, htext, hc, -⟩ := (hlabel label rfl).toList_eq
    rw [toList_head_some, htext]
    exact ⟨c, _, rfl, hc⟩

/-- A field is read up to what stands behind it; its selections are there, if they follow. -/
theorem selection?_head (hname : IsName name) (hlabel : ∀ l ∈ label, IsName l)
    (h : ∀ a ∈ arguments, WireValue.FieldReadsBack a)
    (hfuel : (head name label arguments).toList.length ≤ fuel) (hrest : Behind rest) :
    selection? (fuel + 1) sets (' ' :: ((head name label arguments).toList ++ rest)) =
      some (.field label name (arguments.map WireValue.fieldLiteral) []
        ((selectionSet? fuel sets rest).getD ([], rest)).1, ((selectionSet? fuel sets rest).getD ([], rest)).2) := by
  have hpoint : ellipsis? (' ' :: ((head name label arguments).toList ++ rest)) = none := by
    obtain ⟨c, more, htext, hc⟩ := head_starts hname hlabel arguments
    rw [htext, List.cons_append]
    exact ellipsis?_eq_none (skip_space.trans (skip_of_isNameStart hc)) (isNameStart_ne hc rfl)
  have hlength : (argumentText arguments).toList.length ≤ fuel := by
    rw [head, String.toList_append, List.length_append] at hfuel
    omega
  have hnamed : name? (' ' :: (name.toList ++ ((argumentText arguments).toList ++ rest))) =
      some (name, (argumentText arguments).toList ++ rest) :=
    name?_of_isName hname (apart_argumentText arguments hrest)
  have hgiven := arguments_argumentText h hlength hrest
  have hmarks : directives fuel rest = ([], rest) := by
    obtain ⟨c, more, hskip, -, -, hc⟩ := hrest.skip_eq
    exact directives_eq_nil hskip hc
  cases label with
  | none =>
    rw [toList_head_none, List.append_assoc] at hpoint ⊢
    have hlabeled : label? (' ' :: (name.toList ++ ((argumentText arguments).toList ++ rest))) = none := by
      obtain ⟨c, more, hskip, hc⟩ := skip_argumentText arguments hrest
      simp only [label?, hnamed, symbol?_eq_none hskip hc, Option.bind_eq_bind, Option.bind_some,
        Option.bind_none]
    rw [selection?, hpoint, hlabeled]
    simp only [hnamed, hgiven, hmarks, Option.bind_eq_bind, Option.bind_some]
    rfl
  | some label =>
    rw [toList_head_some, List.append_assoc, List.cons_append, List.cons_append, List.append_assoc] at hpoint ⊢
    have hlabeled : label? (' ' :: (label.toList ++
        ':' :: ' ' :: (name.toList ++ ((argumentText arguments).toList ++ rest)))) =
          some (label, ' ' :: (name.toList ++ ((argumentText arguments).toList ++ rest))) := by
      have hread : name? (' ' :: (label.toList ++
          ':' :: ' ' :: (name.toList ++ ((argumentText arguments).toList ++ rest)))) = some (label, _) :=
        name?_of_isName (hlabel label rfl) (apart_cons (by decide))
      have hcolon (after : List Char) : symbol? ':' (':' :: after) = some after := rfl
      simp only [label?, hread, hcolon, Option.bind_eq_bind, Option.bind_some]
      rfl
    rw [selection?, hpoint, hlabeled]
    simp only [hnamed, hgiven, hmarks, Option.bind_eq_bind, Option.bind_some]
    rfl

end Head

section Selections

mutual

/-- The selection that a field stands for. -/
def selection : WantedField → Selection
  | .mk definition label arguments below =>
    .field label definition.name (arguments.map WireValue.fieldLiteral) [] (selections below)

/-- The selections that fields stand for. -/
def selections : List WantedField → List Selection
  | [] => []
  | f :: rest => selection f :: selections rest

end

mutual

/-- How many selection sets stand inside each other below a field. -/
def nesting : WantedField → Nat
  | .mk _ _ _ below => nestings below

/-- How many selection sets stand inside each other where the outermost holds some fields. -/
def nestings : List WantedField → Nat
  | [] => 0
  | f :: rest => max (nesting f + 1) (nestings rest)

end

variable {definition : FieldDescription} {label : Option String} {arguments : Entries WireValue}
  {f : WantedField} {fields below : List WantedField} {rest : List Char} {fuel sets : Nat}

theorem toList_text_nil :
    (text (.mk definition label arguments [])).toList = (head definition.name label arguments).toList := rfl

theorem toList_text (h : below ≠ []) : (text (.mk definition label arguments below)).toList =
    (head definition.name label arguments).toList ++ ' ' :: '\x7b' :: ((texts below).toList ++ [' ', '\x7d']) := by
  rw [text, List.isEmpty_eq_false_iff.mpr h, if_neg Bool.false_ne_true, String.toList_append, String.toList_append,
    String.toList_append, List.append_assoc, List.append_assoc]
  rfl

theorem toList_texts_cons (f : WantedField) (fields : List WantedField) :
    (texts (f :: fields)).toList = ' ' :: (f.text.toList ++ (texts fields).toList) := by
  rw [texts, String.toList_append, String.toList_append]
  rfl

/-- The text of a field starts like a name. -/
theorem Legible.text_starts (h : f.Legible) : ∃ c more, f.text.toList = c :: more ∧ isNameStart c = true := by
  obtain ⟨hname, hlabel, -, -, -⟩ := h
  rename_i definition label arguments below
  obtain ⟨c, more, htext, hc⟩ := head_starts hname hlabel arguments
  by_cases hbelow : below = []
  · subst hbelow
    exact ⟨c, more, htext, hc⟩
  · rw [toList_text hbelow, htext]
    exact ⟨c, _, rfl, hc⟩

theorem ends_texts (h : ∀ f ∈ fields, f.Legible) (rest : List Char) :
    Ends ((texts fields).toList ++ ' ' :: '\x7d' :: rest) := by
  cases fields with
  | nil => exact ⟨'\x7d', rest, rfl, .inr rfl⟩
  | cons f fields =>
    obtain ⟨c, more, htext, hc⟩ := (h f List.mem_cons_self).text_starts
    rw [toList_texts_cons, htext]
    exact ⟨c, _, rfl, .inl hc⟩

/-- How a field is read: whole, if there are few enough selection sets; else its selections are left. -/
structure Read (f : WantedField) : Prop where
  whole {fuel sets : Nat} {rest : List Char} (hfuel : f.text.toList.length < fuel) (hsets : f.nesting ≤ sets)
    (hrest : Ends rest) : selection? fuel sets (' ' :: (f.text.toList ++ rest)) = some (f.selection, rest)
  cut {fuel sets : Nat} {rest : List Char} (hfuel : f.text.toList.length < fuel) (hsets : sets < f.nesting)
    (hrest : Ends rest) : ∃ other more,
      selection? fuel sets (' ' :: (f.text.toList ++ rest)) = some (other, ' ' :: '\x7b' :: more)

/-- Fields are read up to the closing bracket, if there are few enough selection sets. -/
theorem selections_texts (hlegible : ∀ f ∈ fields, f.Legible) (h : ∀ f ∈ fields, f.Read)
    (hfuel : (texts fields).toList.length < fuel) (hsets : nestings fields ≤ sets + 1) :
    Document.selections fuel sets ((texts fields).toList ++ ' ' :: '\x7d' :: rest) =
      (selections fields, ' ' :: '\x7d' :: rest) := by
  induction fields generalizing fuel with
  | nil => exact selections_eq_nil rfl rfl (by decide)
  | cons f fields ih =>
    obtain ⟨fuel, rfl⟩ : ∃ n, fuel = n + 1 := ⟨fuel - 1, by omega⟩
    rw [toList_texts_cons, List.length_cons, List.length_append] at hfuel
    rw [nestings, Nat.max_le] at hsets
    have hlater : ∀ g ∈ fields, g.Legible := fun g hg => hlegible g (List.mem_cons_of_mem f hg)
    have hfirst := (h f List.mem_cons_self).whole (by omega : _ < fuel) (by omega : f.nesting ≤ sets)
      (ends_texts hlater rest)
    rw [toList_texts_cons, List.cons_append, List.append_assoc, selections_cons hfirst,
      ih hlater (fun g hg => h g (List.mem_cons_of_mem f hg)) (by omega) hsets.2]
    rfl

/-- Else they are read up to some opening bracket. -/
theorem selections_texts_cut (hlegible : ∀ f ∈ fields, f.Legible) (h : ∀ f ∈ fields, f.Read)
    (hfuel : (texts fields).toList.length < fuel) (hsets : sets + 1 < nestings fields) :
    ∃ found more, Document.selections fuel sets ((texts fields).toList ++ ' ' :: '\x7d' :: rest) =
      (found, ' ' :: '\x7b' :: more) := by
  induction fields generalizing fuel with
  | nil => cases hsets
  | cons f fields ih =>
    obtain ⟨fuel, rfl⟩ : ∃ n, fuel = n + 1 := ⟨fuel - 1, by omega⟩
    rw [toList_texts_cons, List.length_cons, List.length_append] at hfuel
    rw [toList_texts_cons, List.cons_append, List.append_assoc]
    have hlater : ∀ g ∈ fields, g.Legible := fun g hg => hlegible g (List.mem_cons_of_mem f hg)
    have hends := ends_texts hlater rest
    by_cases hfirst : f.nesting ≤ sets
    · have hrest : sets + 1 < nestings fields := by
        rw [nestings] at hsets
        omega
      obtain ⟨found, more, hfound⟩ :=
        ih hlater (fun g hg => h g (List.mem_cons_of_mem f hg)) (by omega : _ < fuel) hrest
      refine ⟨f.selection :: found, more, ?_⟩
      rw [selections_cons ((h f List.mem_cons_self).whole (by omega) hfirst hends), hfound]
    · have hcut : sets < f.nesting := Nat.lt_of_not_le hfirst
      obtain ⟨other, more, hother⟩ := (h f List.mem_cons_self).cut (by omega : _ < fuel) hcut hends
      refine ⟨[other], more, ?_⟩
      rw [selections_cons hother, selections_eq_nil rfl rfl (by decide)]

theorem selections_ne_nil (h : fields ≠ []) : selections fields ≠ [] := by
  cases fields with
  | nil => exact (h rfl).elim
  | cons f fields => exact List.cons_ne_nil _ _

/-- A selection set is read, if there are few enough of them inside each other. -/
theorem selectionSet?_texts {text : List Char}
    (hskip : skip text = '\x7b' :: ((texts fields).toList ++ ' ' :: '\x7d' :: rest)) (hsome : fields ≠ [])
    (hlegible : ∀ f ∈ fields, f.Legible) (h : ∀ f ∈ fields, f.Read)
    (hfuel : (texts fields).toList.length + 1 < fuel) :
    selectionSet? fuel sets text = if nestings fields ≤ sets then some (selections fields, rest) else none := by
  obtain ⟨fuel, rfl⟩ : ∃ n, fuel = n + 1 := ⟨fuel - 1, by omega⟩
  cases sets with
  | zero =>
    have hnesting : ¬ nestings fields ≤ 0 := by
      cases fields with
      | nil => exact (hsome rfl).elim
      | cons f fields =>
        rw [nestings]
        omega
    rw [if_neg hnesting, selectionSet?]
  | succ sets =>
    by_cases hsets : nestings fields ≤ sets + 1
    · rw [if_pos hsets]
      exact selectionSet?_closed hskip (selections_texts hlegible h (by omega) hsets) (selections_ne_nil hsome)
    · have hcut : ∃ found more, Document.selections fuel sets ((texts fields).toList ++ ' ' :: '\x7d' :: rest) =
          (found, ' ' :: '\x7b' :: more) := selections_texts_cut hlegible h (by omega) (Nat.lt_of_not_le hsets)
      obtain ⟨found, more, hfound⟩ := hcut
      rw [if_neg hsets]
      exact selectionSet?_unclosed hskip hfound

/-- A field with selections is read with them, or without them, if there are too many selection sets. -/
theorem selection?_text (hname : IsName definition.name) (hlabel : ∀ l ∈ label, IsName l)
    (hgiven : ∀ a ∈ arguments, WireValue.FieldReadsBack a) (hsome : below ≠ []) (hlegible : ∀ f ∈ below, f.Legible)
    (h : ∀ f ∈ below, f.Read) (hfuel : (text (.mk definition label arguments below)).toList.length ≤ fuel) :
    selection? (fuel + 1) sets (' ' :: ((text (.mk definition label arguments below)).toList ++ rest)) =
      if nestings below ≤ sets then some (selection (.mk definition label arguments below), rest)
      else some (.field label definition.name (arguments.map WireValue.fieldLiteral) [] [],
        ' ' :: '\x7b' :: ((texts below).toList ++ ' ' :: '\x7d' :: rest)) := by
  rw [toList_text hsome] at hfuel ⊢
  simp only [List.length_append, List.length_cons, List.length_nil] at hfuel
  have htext : (head definition.name label arguments).toList ++
      ' ' :: '\x7b' :: ((texts below).toList ++ [' ', '\x7d']) ++ rest =
        (head definition.name label arguments).toList ++
          ' ' :: '\x7b' :: ((texts below).toList ++ ' ' :: '\x7d' :: rest) := by
    simp only [List.append_assoc, List.cons_append, List.nil_append]
  have hset : selectionSet? fuel sets (' ' :: '\x7b' :: ((texts below).toList ++ ' ' :: '\x7d' :: rest)) =
      if nestings below ≤ sets then some (selections below, rest) else none :=
    selectionSet?_texts rfl hsome hlegible h (by omega)
  rw [htext, selection?_head hname hlabel hgiven (by omega) ⟨'\x7b', _, rfl, .inr (.inl rfl)⟩, hset]
  split <;> rfl

/-- A legible field is read, and so are the fields below it. -/
theorem Legible.read (h : f.Legible) : f.Read := by
  induction h with
  | @mk definition label arguments below hname hlabel hnames hvalues hbelow ih =>
    have hgiven : ∀ a ∈ arguments, WireValue.FieldReadsBack a := fun a ha =>
      ⟨hnames a ha, (hvalues a ha).readsBack⟩
    by_cases hempty : below = []
    · subst hempty
      constructor
      · intro fuel sets rest hfuel hsets hrest
        obtain ⟨fuel, rfl⟩ : ∃ n, fuel = n + 1 := ⟨fuel - 1, by omega⟩
        rw [toList_text_nil] at hfuel ⊢
        rw [selection?_head hname hlabel hgiven (by omega) hrest.behind, hrest.selectionSet?]
        rfl
      · intro fuel sets rest hfuel hsets hrest
        cases hsets
    · constructor
      · intro fuel sets rest hfuel hsets hrest
        obtain ⟨fuel, rfl⟩ : ∃ n, fuel = n + 1 := ⟨fuel - 1, by omega⟩
        rw [nesting] at hsets
        rw [selection?_text hname hlabel hgiven hempty hbelow ih (by omega), if_pos hsets]
      · intro fuel sets rest hfuel hsets hrest
        obtain ⟨fuel, rfl⟩ : ∃ n, fuel = n + 1 := ⟨fuel - 1, by omega⟩
        rw [nesting] at hsets
        rw [selection?_text hname hlabel hgiven hempty hbelow ih (by omega), if_neg (Nat.not_le.mpr hsets)]
        exact ⟨_, _, rfl⟩

mutual

/-- No text has more selection sets inside each other than characters. -/
theorem nesting_le_length : ∀ f : WantedField, f.nesting ≤ f.text.toList.length
  | .mk definition label arguments below => by
    have hbelow := nestings_le_length below
    by_cases hempty : below = []
    · subst hempty
      exact Nat.zero_le _
    · rw [toList_text hempty, nesting, List.length_append, List.length_cons, List.length_cons, List.length_append]
      omega

theorem nestings_le_length : ∀ fields : List WantedField, nestings fields ≤ (texts fields).toList.length
  | [] => Nat.zero_le _
  | f :: fields => by
    have hfirst := nesting_le_length f
    have hrest := nestings_le_length fields
    rw [nestings, toList_texts_cons, List.length_cons, List.length_append]
    omega

end

end Selections

end WantedField

end Client

end RecordGraph
