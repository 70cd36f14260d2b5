import Mathlib.Data.List.Basic
import RecordGraph.Resolve.Dispatch
import RecordGraph.Proofs.Hosted
import RecordGraph.Proofs.Number.Digits
/-! Paging through a connection whose elements are counted. A cursor is read back as the offset it was
written from, so the page after the last cursor of a page starts where that page ended, and a page that
is not the last is as long as it was asked to be. By induction on what is left, a reader who passes each
last cursor on comes to an end, and has then seen every element once, in order. -/

namespace RecordGraph

section
variable {n : Nat}

/-- A number is written without a sign, so its text is read back as the number. -/
theorem readUnsigned?_toString (h : n < UInt64.size) : readUnsigned? (toString n) = some (UInt64.ofNat n) := by
  have hdigits : ∀ c ∈ Nat.toDigits 10 n, c.isDigit = true := fun c hc =>
    Nat.isDigit_of_mem_toDigits (by decide) (by decide) hc
  have hread : ¬ (Nat.toDigits 10 n = [] ∨ (!(Nat.toDigits 10 n).all Char.isDigit) = true) := by
    rintro (hnil | hno)
    · exact Nat.toDigits_ne_nil hnil
    · rw [List.all_eq_true.mpr hdigits] at hno
      exact absurd hno (by decide)
  unfold readUnsigned?
  rw [Nat.toString_eq_repr, Nat.toList_repr]
  split
  · rename_i heq
    exact absurd (hdigits '+' (heq ▸ List.mem_cons_self)) (by decide)
  · rw [if_neg hread, foldl_toDigits]
    exact if_pos h

namespace Page

/-- The page after a cursor starts behind the element that the cursor was written for. -/
theorem start_toString (h : n + 1 < UInt64.size) : start (some (toString n)) = n + 1 := by
  unfold start
  rw [Option.bind_some, readUnsigned?_toString (Nat.lt_of_succ_lt h)]
  change (UInt64.ofNat n + 1).toNat = n + 1
  rw [UInt64.toNat_add, UInt64.toNat_ofNat']
  change (n % UInt64.size + 1) % UInt64.size = n + 1
  rw [Nat.mod_eq_of_lt (Nat.lt_of_succ_lt h), Nat.mod_eq_of_lt h]

variable (elements : List Value) (after : Option String) (size : Int64)

/-- The elements of a page are the ones asked for. -/
theorem nodes_cut : (cut elements after (some size)).edges.map Prod.snd =
    (elements.drop (start after)).take size.toInt.toNat := by
  change ((((elements.zipIdx).drop (start after)).take size.toInt.toNat).map Prod.swap).map Prod.snd = _
  rw [List.map_map, List.map_take, List.map_drop]
  congr 2
  exact List.zipIdx_map_fst 0 elements

theorem length_edges_cut : (cut elements after (some size)).edges.length =
    min size.toInt.toNat (elements.length - start after) := by
  rw [← List.length_map Prod.snd, nodes_cut, List.length_take, List.length_drop]

/-- More follow a page exactly if it was not asked for all that is left. -/
theorem hasNext_cut : (cut elements after (some size)).hasNext =
    decide (start after + size.toInt.toNat < elements.length) := by
  change decide (start after + (cut elements after (some size)).edges.length < elements.length) = _
  rw [length_edges_cut]
  apply decide_eq_decide.mpr
  omega

/-- A page that others follow ends with the last element asked for. -/
theorem getLast?_edges_cut (hsize : 1 ≤ size.toInt)
    (hnext : start after + size.toInt.toNat < elements.length) :
    (cut elements after (some size)).edges.getLast?.map Prod.fst =
      some (start after + size.toInt.toNat - 1) := by
  have hlength := length_edges_cut elements after size
  have hlast : (cut elements after (some size)).edges.length - 1 < size.toInt.toNat := by omega
  have hthere : start after + ((cut elements after (some size)).edges.length - 1) < elements.length := by omega
  rw [List.getLast?_eq_getElem?]
  change ((((elements.zipIdx.drop (start after)).take size.toInt.toNat).map Prod.swap)[
    (cut elements after (some size)).edges.length - 1]?).map Prod.fst = _
  rw [List.getElem?_map, List.getElem?_take_of_lt hlast, List.getElem?_drop, List.getElem?_zipIdx,
    List.getElem?_eq_getElem hthere]
  change some (0 + (start after + ((cut elements after (some size)).edges.length - 1))) = _
  congr 1
  omega

end Page

/-! What a client reads off the value of a page. -/

namespace Value

/-- The values of the nodes of a page. -/
def nodes? (page : Value) : Option (List Value) := do
  (← (← page.get? "edges").asList?).mapM (·.get? "node")

/-- Whether a page says that more follow. -/
def hasNext? (page : Value) : Option Bool := do
  match ← (← page.get? "page_info").get? "has_next" with
  | .bool more => some more
  | _ => none

/-- The cursor of the last edge of a page. -/
def endCursor? (page : Value) : Option String := do
  (← (← page.get? "page_info").get? "end_cursor").asText?

/-- How many elements there are in all, as a page says. -/
def total? (page : Value) : Option Value := page.get? "total_count"

end Value

namespace Page

variable (p : Page)

theorem nodes?_toValue : p.toValue.nodes? = some (p.edges.map Prod.snd) := List.mapM_map.trans List.mapM_pure

theorem hasNext?_toValue : p.toValue.hasNext? = some p.hasNext := rfl

theorem endCursor?_toValue :
    p.toValue.endCursor? = (p.edges.getLast?.map Prod.fst).map fun offset => toString offset := by
  change (Page.cursor p.edges.getLast?).asText? = _
  cases p.edges.getLast? <;> rfl

theorem total?_toValue : p.toValue.total? = some (.count p.total) := rfl

end Page

end

section
variable {σ : Type} (host : Host σ) (parent : Value) (element : String) (info : FieldInfo) (arguments : Arguments)

/-- The elements that a counted connection pages through: the list that the hook of the parent answers. -/
def Value.countedElements : Hosted σ (List Value) := do
  match parent.resolveHandler? info.fieldName with
  | some hook => return (← hook.value host info arguments).asList?.getD []
  | none => return []

theorem ConnectionResolver.value_page : ConnectionResolver.value host parent element info arguments .page = do
    let elements ← parent.countedElements host info arguments
    return (Page.cut elements (arguments.text? "after") (arguments.int? "first")).toValue := by
  unfold ConnectionResolver.value Value.countedElements
  cases parent.resolveHandler? info.fieldName with
  | none => rfl
  | some hook => simp

end

/-- Someone who pages through a connection: how many elements each request asks for, at least one, and the
arguments of the request, which say so and pass a cursor on. -/
structure PageReader where
  sizes : Nat → Int64
  arguments : Nat → Option String → Arguments
  positive : ∀ i, 1 ≤ (sizes i).toInt
  first_eq : ∀ i after, Arguments.int? (arguments i after) "first" = some (sizes i)
  after_eq : ∀ i after, Arguments.text? (arguments i after) "after" = after

section
variable {σ : Type} (host : Host σ) (parent : Value) (element : String) (info : FieldInfo)

/-- The hook of the parent answers the same list each time, whatever else it does. -/
def AnswersList (elements : List Value) : Prop :=
  ∃ hook, parent.resolveHandler? info.fieldName = some hook ∧
    ∀ arguments before, ∃ after, (hook.value host info arguments).run before = (.ok (.list elements), after)

/-- The page that a request of a reader gets. -/
def PageReader.request (q : PageReader) (i : Nat) (after : Option String) : Hosted σ Value :=
  ConnectionResolver.value host parent element info (q.arguments i after) .page

/-- The pages of a reader from some request and cursor on. The reader goes on after the end cursor of a
page for as long as the page says that more follow. -/
inductive PageReader.Walk (q : PageReader) : Nat → Option String → σ → List Value → σ → Prop where
  | last {i : Nat} {after : Option String} {before behind : σ} {page : Value} :
    (q.request host parent element info i after).run before = (.ok page, behind) →
      page.hasNext? = some false → Walk q i after before [page] behind
  | more {i : Nat} {after : Option String} {before between behind : σ} {page : Value} {cursor : String}
      {pages : List Value} :
    (q.request host parent element info i after).run before = (.ok page, between) →
      page.hasNext? = some true → page.endCursor? = some cursor →
      Walk q (i + 1) (some cursor) between pages behind → Walk q i after before (page :: pages) behind

end

/-- Pages that visit every one of some elements of a list of so many in order, once. -/
structure PagesVisit (total : Nat) (elements : List Value) (pages : List Value) : Prop where
  nodes : (pages.mapM Value.nodes?).map List.flatten = some elements
  total : ∀ page ∈ pages, page.total? = some (.count total)
  last : ∃ front page, pages = front ++ [page] ∧ page.hasNext? = some false ∧
    ∀ earlier ∈ front, earlier.hasNext? = some true

namespace PagesVisit

variable {total : Nat} {front rest pages : List Value} {page : Value}

theorem single (hnodes : page.nodes? = some front) (htotal : page.total? = some (.count total))
    (hlast : page.hasNext? = some false) : PagesVisit total front [page] where
  nodes := by
    rw [List.mapM_cons, hnodes, List.mapM_nil]
    exact congrArg some (List.append_nil front)
  total earlier hearlier := by
    rw [List.mem_singleton.mp hearlier]
    exact htotal
  last := ⟨[], page, rfl, hlast, fun _ h => absurd h List.not_mem_nil⟩

theorem cons (hnodes : page.nodes? = some front) (htotal : page.total? = some (.count total))
    (hmore : page.hasNext? = some true) (h : PagesVisit total rest pages) :
    PagesVisit total (front ++ rest) (page :: pages) where
  nodes := by
    obtain ⟨nodes, hpages, hflat⟩ := Option.map_eq_some_iff.mp h.nodes
    rw [List.mapM_cons, hnodes, hpages, ← hflat]
    rfl
  total earlier hearlier := by
    rcases List.mem_cons.mp hearlier with rfl | hmem
    · exact htotal
    · exact h.total earlier hmem
  last := by
    obtain ⟨earlier, last, rfl, hlast, hearlier⟩ := h.last
    refine ⟨page :: earlier, last, rfl, hlast, fun other hother => ?_⟩
    rcases List.mem_cons.mp hother with rfl | hmem
    · exact hmore
    · exact hearlier other hmem

end PagesVisit

namespace PageReader

variable {σ : Type} {host : Host σ} {q : PageReader} {parent : Value} {element : String} {info : FieldInfo}
  {elements : List Value}

/-- The pages of a reader are determined by where it starts. -/
theorem Walk.eq {i : Nat} {after : Option String} {before behind behind' : σ} {pages pages' : List Value}
    (h : q.Walk host parent element info i after before pages behind)
    (h' : q.Walk host parent element info i after before pages' behind') : pages' = pages ∧ behind' = behind := by
  induction h generalizing pages' behind' with
  | last hrequest hlast =>
    cases h' with
    | last hrequest' =>
      cases hrequest.symm.trans hrequest'
      exact ⟨rfl, rfl⟩
    | more hrequest' hmore =>
      cases hrequest.symm.trans hrequest'
      cases hlast.symm.trans hmore
  | more hrequest hmore hcursor _ ih =>
    cases h' with
    | last hrequest' hlast =>
      cases hrequest.symm.trans hrequest'
      cases hmore.symm.trans hlast
    | more hrequest' _ hcursor' hwalk =>
      cases hrequest.symm.trans hrequest'
      cases hcursor.symm.trans hcursor'
      obtain ⟨rfl, rfl⟩ := ih hwalk
      exact ⟨rfl, rfl⟩

section
variable (q element)

theorem request_eq (hlist : AnswersList host parent info elements) (i : Nat) (after : Option String)
    (before : σ) : ∃ behind, (q.request host parent element info i after).run before =
      (.ok (Page.cut elements after (some (q.sizes i))).toValue, behind) := by
  obtain ⟨hook, hhook, hanswers⟩ := hlist
  obtain ⟨behind, hanswer⟩ := hanswers (q.arguments i after) before
  have helements : (parent.countedElements host info (q.arguments i after)).run before = (.ok elements, behind) := by
    rw [Value.countedElements, hhook]
    exact Hosted.run_bind hanswer
  refine ⟨behind, ?_⟩
  rw [request, ConnectionResolver.value_page, Hosted.run_bind helements, q.first_eq, q.after_eq]
  rfl

/-- A reader who asks after some cursor sees what is left there. -/
theorem exists_walk (hlist : AnswersList host parent info elements) (hlong : elements.length < UInt64.size)
    (i : Nat) (after : Option String) (before : σ) :
    ∃ pages behind, q.Walk host parent element info i after before pages behind ∧
      PagesVisit elements.length (elements.drop (Page.start after)) pages := by
  obtain ⟨between, hrequest⟩ := request_eq q element hlist i after before
  have hpositive := q.positive i
  have hnodes := (Page.nodes?_toValue _).trans (congrArg some (Page.nodes_cut elements after (q.sizes i)))
  have hhas := (Page.hasNext?_toValue _).trans (congrArg some (Page.hasNext_cut elements after (q.sizes i)))
  by_cases hnext : Page.start after + (q.sizes i).toInt.toNat < elements.length
  · -- The next page starts where this one ended, and this one is not empty.
    have hcursor := (Page.endCursor?_toValue _).trans
      (congrArg _ (Page.getLast?_edges_cut elements after (q.sizes i) hpositive hnext))
    have hstart : Page.start (some (toString (Page.start after + (q.sizes i).toInt.toNat - 1))) =
        Page.start after + (q.sizes i).toInt.toNat := by
      rw [Page.start_toString (by omega)]
      omega
    rw [decide_eq_true hnext] at hhas
    obtain ⟨pages, behind, hwalk, hvisit⟩ := exists_walk hlist hlong (i + 1)
      (some (toString (Page.start after + (q.sizes i).toInt.toNat - 1))) between
    refine ⟨_ :: pages, behind, .more hrequest hhas hcursor hwalk, ?_⟩
    rw [hstart, ← List.drop_drop] at hvisit
    have h := hvisit.cons hnodes (Page.total?_toValue _) hhas
    rwa [List.take_append_drop] at h
  · rw [decide_eq_false hnext] at hhas
    rw [List.take_of_length_le (by rw [List.length_drop]; omega)] at hnodes
    exact ⟨_, between, .last hrequest hhas, .single hnodes (Page.total?_toValue _) hhas⟩
termination_by elements.length - Page.start after
decreasing_by omega

/-- Whoever pages through a connection, from no cursor on and for as long as pages say that more follow,
comes to an end after finitely many pages, whatever their sizes, and has then seen each element of the list
once and in order. A list that a host can hold has fewer elements than there are 64-bit words. -/
theorem pages_visit_once (hlist : AnswersList host parent info elements)
    (hlong : elements.length < UInt64.size) (before : σ) :
    ∃ pages behind, q.Walk host parent element info 0 none before pages behind ∧
      PagesVisit elements.length elements pages ∧
      ∀ pages' behind', q.Walk host parent element info 0 none before pages' behind' →
        pages' = pages ∧ behind' = behind := by
  obtain ⟨pages, behind, hwalk, hvisit⟩ := exists_walk q element hlist hlong 0 none before
  exact ⟨pages, behind, hwalk, hvisit, fun _ _ hwalk' => hwalk.eq hwalk'⟩

end

/-- A reader of pages of one size. -/
def even (size : Int64) (h : 1 ≤ size.toInt) : PageReader where
  sizes _ := size
  arguments _ after := [("first", .int size), ("after", .ofText? after)]
  positive _ := h
  first_eq _ _ := rfl
  after_eq _ after := by cases after <;> rfl

/-- A shelf with a hook for its titles. -/
def shelf (titles : List Value) : Value :=
  .source (.mk "Shelf" [] [("titles", .give (.list titles))] [] [])

def titlesInfo : FieldInfo :=
  { fieldName := "titles", wireName := "titles", parentType := "Shelf", operation := .query, context := none }

theorem three_titles_in_pairs :
    AnswersList Host.plain (shelf [.string "A", .string "B", .string "A"]) titlesInfo
        [.string "A", .string "B", .string "A"] ∧
      ∃ pages behind, (even 2 (by decide)).Walk Host.plain (shelf [.string "A", .string "B", .string "A"])
        "Title" titlesInfo 0 none () pages behind ∧
        PagesVisit 3 [.string "A", .string "B", .string "A"] pages := by
  have hlist : AnswersList Host.plain (shelf [.string "A", .string "B", .string "A"]) titlesInfo
      [.string "A", .string "B", .string "A"] := ⟨_, rfl, fun _ _ => ⟨(), rfl⟩⟩
  obtain ⟨pages, behind, hwalk, hvisit, -⟩ :=
    pages_visit_once (even 2 (by decide)) "Title" hlist (by decide) ()
  exact ⟨hlist, pages, behind, hwalk, hvisit⟩

end PageReader

end RecordGraph
