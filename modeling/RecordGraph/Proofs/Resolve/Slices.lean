import RecordGraph.Proofs.Resolve.Paging
/-! Pages as slices of the list of all elements. A page holds the elements from the offset after its cursor on, as
many as are asked for and as there are, and says whether others come before or behind it. Two cursors are the
exceptions: the offset after the last 64-bit word is no word, so that the page starts at the front again, and every
page of an empty list that starts behind a cursor says that something comes before it. -/

namespace RecordGraph

/-! What a client reads off the value of a page. -/

namespace Value

/-- The node and the cursor of each edge of a page. -/
def edges? (page : Value) : Option (List (Value × Value)) := do
  (← (← page.get? "edges").asList?).mapM fun edge => do
    return (← edge.get? "node", ← edge.get? "cursor")

/-- The cursors that a page names as its first and its last one. -/
def bounds? (page : Value) : Option (Value × Value) := do
  let info ← page.get? "page_info"
  return (← info.get? "start_cursor", ← info.get? "end_cursor")

/-- Whether a page says that something comes before it. -/
def hasPrevious? (page : Value) : Option Bool := do
  match ← (← page.get? "page_info").get? "has_previous" with
  | .bool before => some before
  | _ => none

end Value

namespace Page

/-- The offset after the one that a cursor names, of any size; the front when it names none. -/
def offsetAfter (after : Option String) : Nat :=
  match after.bind readUnsigned? with
  | some offset => offset.toNat + 1
  | none => 0

/-- Where a page ends that starts at an offset, among so many elements. No page has fewer than no elements. -/
def stop (total start : Nat) : Option Int64 → Nat
  | some first => min (start + (max first.toInt 0).toNat) total
  | none => total

/-- The elements from one offset up to another in order, each with its offset as its cursor. -/
def edgesBetween (elements : List Value) (start stop : Nat) : List (Value × Value) :=
  ((elements.zipIdx.take stop).drop start).map fun (node, offset) => (node, .string (toString offset))

/-- A page that shows the elements from one offset up to another, and says what is around them. -/
structure Slice (elements : List Value) (start stop : Nat) (page : Value) : Prop where
  edges : page.edges? = some (edgesBetween elements start stop)
  bounds : page.bounds? = some
    (((edgesBetween elements start stop).head?.map Prod.snd).getD .null,
      ((edgesBetween elements start stop).getLast?.map Prod.snd).getD .null)
  hasNext : page.hasNext? = some (!(elements.drop stop).isEmpty)
  hasPrevious : page.hasPrevious? = some (!(elements.take start).isEmpty)

/-- The page that a cursor and a size ask for: the offset after the cursor is computed without running over, and the
page is the slice from there on. -/
structure Asked (elements : List Value) (after : Option String) (first : Option Int64) (page : Value) : Prop where
  exact : start after = offsetAfter after
  slice : Slice elements (offsetAfter after) (stop elements.length (offsetAfter after) first) page

variable {elements : List Value} {after : Option String} {first : Option Int64}

/-- The offset after a cursor is a word unless the cursor names the last one. -/
theorem start_eq_offsetAfter : start after = offsetAfter after ↔ offsetAfter after < UInt64.size := by
  unfold start offsetAfter
  cases after.bind readUnsigned? with
  | none => decide
  | some offset =>
    have hlt : offset.toNat < UInt64.size := offset.toNat_lt
    have hadd : (offset + 1).toNat = (offset.toNat + 1) % UInt64.size := UInt64.toNat_add ..
    simp only [hadd]
    constructor
    · intro h
      rw [← h]
      exact Nat.mod_lt _ (by decide)
    · exact Nat.mod_eq_of_lt

/-! The parts of a page. -/

/-- An edge as a client reads it. -/
def shown (edge : Nat × Value) : Value × Value := (edge.2, .string (toString edge.1))

theorem shown_edges_cut : (cut elements after first).edges.map shown =
    edgesBetween elements (start after) (stop elements.length (start after) first) := by
  have hstop : elements.zipIdx.take (stop elements.length (start after) first) =
      elements.zipIdx.take (start after + limit elements.length first) := by
    have hlength : elements.zipIdx.length = elements.length := List.length_zipIdx
    apply List.take_eq_take_iff.mpr
    cases first with
    | none => simp [stop, limit]
    | some k =>
      have hmax : (max k.toInt 0).toNat = k.toInt.toNat := by omega
      simp [stop, limit, hmax]
  rw [edgesBetween, hstop, List.drop_take, Nat.add_sub_cancel_left]
  simp [cut, shown, List.map_map, Function.comp_def]

theorem length_edges : (cut elements after first).edges.length =
    stop elements.length (start after) first - start after := by
  have hle : stop elements.length (start after) first ≤ elements.length := by
    cases first with
    | none => exact Nat.le_refl _
    | some k => exact Nat.min_le_right ..
  rw [← List.length_map shown, shown_edges_cut, edgesBetween]
  simp [Nat.min_eq_left hle]

theorem edges?_toValue (p : Page) : p.toValue.edges? = some (p.edges.map shown) :=
  List.mapM_map.trans List.mapM_pure

theorem cursor_eq (edge : Option (Nat × Value)) : cursor edge = ((edge.map shown).map Prod.snd).getD .null := by
  cases edge <;> rfl

theorem bounds?_toValue (p : Page) : p.toValue.bounds? = some
    (((p.edges.map shown).head?.map Prod.snd).getD .null, ((p.edges.map shown).getLast?.map Prod.snd).getD .null) := by
  rw [List.head?_map, List.getLast?_map, ← cursor_eq, ← cursor_eq]
  rfl

theorem hasPrevious?_toValue (p : Page) : p.toValue.hasPrevious? = some p.hasPrevious := rfl

theorem nonempty_drop {k : Nat} : (!(elements.drop k).isEmpty) = true ↔ k < elements.length := by simp

theorem nonempty_take {k : Nat} : (!(elements.take k).isEmpty) = true ↔ 0 < k ∧ elements ≠ [] := by
  simp [Nat.pos_iff_ne_zero]

/-- More follow a page exactly if there are elements behind its end. -/
theorem hasNext_eq : (cut elements after first).hasNext =
    !(elements.drop (stop elements.length (start after) first)).isEmpty := by
  change decide (start after + (cut elements after first).edges.length < elements.length) = _
  rw [length_edges, Bool.eq_iff_iff, decide_eq_true_iff, nonempty_drop]
  cases first with
  | none =>
    simp only [stop]
    omega
  | some k =>
    simp only [stop]
    omega

/-- A page is a slice of the list unless the list is empty and the page does not start at its front. -/
theorem slice_cut : Slice elements (start after) (stop elements.length (start after) first)
    (cut elements after first).toValue ↔ ¬ (elements = [] ∧ 0 < start after) := by
  have hprevious : (cut elements after first).hasPrevious = true ↔ 0 < start after := decide_eq_true_iff
  constructor
  · rintro hslice ⟨rfl, hstart⟩
    have h := Option.some_inj.mp (hasPrevious?_toValue _ ▸ hslice.hasPrevious)
    rw [hprevious.mpr hstart] at h
    simp at h
  · intro h
    refine ⟨?_, ?_, ?_, ?_⟩
    · rw [edges?_toValue, shown_edges_cut]
    · rw [bounds?_toValue, shown_edges_cut]
    · rw [hasNext?_toValue, hasNext_eq]
    · rw [hasPrevious?_toValue, Option.some_inj, Bool.eq_iff_iff, hprevious, nonempty_take]
      constructor
      · intro hstart
        exact ⟨hstart, fun hnil => h ⟨hnil, hstart⟩⟩
      · intro hstart
        exact hstart.1

/-- A page is the one asked for unless its cursor names the last word, or it asks an empty list for what is behind a
cursor. -/
theorem asked_cut : Asked elements after first (cut elements after first).toValue ↔
    offsetAfter after < UInt64.size ∧ ¬ (elements = [] ∧ 0 < offsetAfter after) := by
  constructor
  · rintro ⟨hexact, hslice⟩
    refine ⟨start_eq_offsetAfter.mp hexact, ?_⟩
    rw [← hexact] at hslice ⊢
    exact slice_cut.mp hslice
  · rintro ⟨hsize, hempty⟩
    have hexact := start_eq_offsetAfter.mpr hsize
    refine ⟨hexact, ?_⟩
    rw [← hexact] at hempty ⊢
    exact slice_cut.mpr hempty

end Page

section
variable {σ : Type} {host : Host σ} {parent : Value} {info : FieldInfo} {arguments : Arguments}
  {elements : List Value} {before behind : σ}

namespace Page

/-- Whatever list a connection counts and whatever cursor and size a request gives, there is a page. It shows the
elements from the offset after the cursor on, as many as asked for and as there are, in order and each under its own
offset, and says what comes before it and behind it. The exceptions are the cursor with the last 64-bit word as
its offset, behind which the list starts again, and a cursor into an empty list, before which there is said to be
something. -/
theorem pages_asked_iff (element : String)
    (helements : (parent.countedElements host info arguments).run before = (.ok elements, behind)) :
    ∃ page, (ConnectionResolver.value host parent element info arguments .page).run before = (.ok page, behind) ∧
      (Asked elements (arguments.text? "after") (arguments.int? "first") page ↔
        offsetAfter (arguments.text? "after") < UInt64.size ∧
          ¬ (elements = [] ∧ 0 < offsetAfter (arguments.text? "after"))) := by
  refine ⟨(cut elements (arguments.text? "after") (arguments.int? "first")).toValue, ?_, asked_cut⟩
  rw [ConnectionResolver.value_page]
  exact Hosted.run_bind helements

/-- Three titles. -/
def titles : List Value := [.string "A", .string "B", .string "C"]

/-- Behind the first of three titles are the two others, however many are asked for. -/
theorem behindFirst_asked :
    (Value.countedElements Host.plain (PageReader.shelf titles) PageReader.titlesInfo
        [("first", .int 5), ("after", .string "0")]).run () = (.ok titles, ()) ∧
      ∃ page, (ConnectionResolver.value Host.plain (PageReader.shelf titles) "Title" PageReader.titlesInfo
        [("first", .int 5), ("after", .string "0")] .page).run () = (.ok page, ()) ∧ Slice titles 1 3 page := by
  have helements : (Value.countedElements Host.plain (PageReader.shelf titles) PageReader.titlesInfo
      [("first", .int 5), ("after", .string "0")]).run () = (.ok titles, ()) := rfl
  obtain ⟨page, hpage, hasked⟩ := pages_asked_iff "Title" helements
  have hsize : offsetAfter (some "0") < UInt64.size := by decide
  have hslice := (hasked.mpr ⟨hsize, nofun⟩).slice
  exact ⟨helements, page, hpage, hslice⟩

/-- Nothing comes before a page of an empty list, but the one behind the cursor `5` says so; and behind the last word
the list starts again. -/
theorem cursors_astray :
    (cut [] (some "5") none).toValue.hasPrevious? = some true ∧
      ¬ Asked [] (some "5") none (cut [] (some "5") none).toValue ∧
      (cut titles (some "18446744073709551615") (some 1)).toValue.nodes? = some [.string "A"] ∧
      ¬ Asked titles (some "18446744073709551615") (some 1)
        (cut titles (some "18446744073709551615") (some 1)).toValue := by
  refine ⟨by decide, fun hasked => ?_, ?_, fun hasked => ?_⟩
  · exact (asked_cut.mp hasked).2 ⟨rfl, by decide⟩
  · rw [nodes?_toValue, nodes_cut]
    rfl
  · exact absurd (asked_cut.mp hasked).1 (by decide)

end Page

end

end RecordGraph
