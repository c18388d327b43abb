import MarkupOutline.Proofs.StatusClasses
import MarkupOutline.Proofs.WrittenItems

/-!
# The endpoints agree

Every request is answered by a session of its own, and yet the answers about one document fit
together. Where the outline is written, so are the listing and what is under any position, and they
show the same elements (`endpoints_agree`).
-/

namespace MarkupOutline.Service

open Session

/-- The status and the body that are sent. -/
def Outcome.verdict (outcome : Outcome) : Nat × Option Json :=
  (outcome.status, outcome.body?)

/-! ## One document -/

/-- The last symbol whose range contains a position is that of the innermost element. -/
theorem getLast?_symbolsAt {lo hi : Position} {forest : Forest Element}
    (h : Markup.Laid lo hi (Forest.map Markup.sketchOf forest)) (lineNumbers : Bool)
    (p : Position) : (Encoding.symbolsAt p (Outline.ofForest lineNumbers forest)).getLast? =
      (Lookup.elementAt p forest).map fun t => Outline.Symbol.ofElement lineNumbers t.value := by
  rw [h.elementAt_eq, Encoding.symbolsAt, Outline.ofForest_eq_map, Forest.values_map,
    Lookup.covering, Forest.values_eq_map_subtrees, List.map_map, List.filter_map,
    List.getLast?_map]
  rfl

section

variable {maxKb : Int} {lo hi : Position} {forest : Forest Element} {r : Request}

/-- The forest of a document is laid out in it. -/
theorem exists_laid_outcome (r : Request) :
    ∃ forest lo hi, r.outcome Markup.read = .ok forest ∧
      Markup.Laid lo hi (Forest.map Markup.sketchOf forest) := by
  cases htaken : r.isTaken with
  | false =>
    refine ⟨[], .origin, .origin, outcome_of_not_taken htaken, ?_⟩
    rw [Forest.map_nil]
    exact .nil (Position.le_refl _)
  | true =>
    obtain ⟨forest, hforest⟩ := Markup.exists_map_sketchOf_eq_prune r.document.text
    refine ⟨forest, _, _, ?_, Markup.laid_of_map_eq_prune hforest⟩
    rw [outcome_of_taken htaken, Markup.outcome_read_false hforest]

/-- The element found has no more levels than the forest. -/
theorem levels_le_of_elementAt_eq_some
    (hlaid : Markup.Laid lo hi (Forest.map Markup.sketchOf forest)) {p : Position}
    {t : Tree Element} (h : Lookup.elementAt p forest = some t) :
    t.levels ≤ Forest.levels forest := by
  rw [hlaid.elementAt_eq] at h
  have hcovers : t ∈ Lookup.covering p forest := List.mem_of_getLast? h
  exact Forest.levels_le_of_mem_subtrees (List.mem_filter.1 hcovers).1

/-- An outline is written if the forest has no more levels than can be. -/
theorem body_answer_outline {lineNumbers : Bool}
    (hsize : isTooLarge maxKb r.document.text = false)
    (houtcome : r.outcome Markup.read = .ok forest) (hquery : r.query = .outline lineNumbers)
    (h : (answer maxKb Markup.read r).status = 200) :
    Forest.levels forest ≤ 252 ∧ (answer maxKb Markup.read r).body =
      .object [("uri", .ofSent r.uri),
        ("symbols", .array (Forest.fold Encoding.symbol (Outline.ofForest lineNumbers forest))),
        ("element_count", .integer (Listing.ofForest forest).length)] := by
  have hverdict := verdict_answer Markup.read r hsize
  rw [houtcome, Request.verdictOf, hquery, Query.body?, Encoding.outline?_eq,
    Outline.levels_ofForest, Encoding.maxOutlineLevels] at hverdict
  split at hverdict
  · next hlevels =>
    rw [Listing.ofForest, List.length_map]
    exact ⟨hlevels, (Prod.mk.inj hverdict).2⟩
  · have h500 : (answer maxKb Markup.read r).status = 500 := congrArg (·.1) hverdict
    exact absurd (h.symm.trans h500) (by decide)

/-- The innermost element is the one that the written outline shows. -/
theorem points_elementAt (hlaid : Markup.Laid lo hi (Forest.map Markup.sketchOf forest))
    (lineNumbers : Bool) {p : Position} {t : Tree Element} {below : List Json}
    (h : Lookup.elementAt p forest = some t) :
    Points (Encoding.symbolItems 0 (Outline.ofForest lineNumbers forest)) p
      (Encoding.element t.value below) := by
  have hlast := getLast?_symbolsAt hlaid lineNumbers p
  rw [h] at hlast
  refine ⟨⟨fun hnull => ?_, fun hnowhere => ?_⟩, fun before item after hitems hcovers hafter => ?_⟩
  · simp [Encoding.element] at hnull
  · rw [Encoding.symbolsAt_eq_nil_iff.2 hnowhere] at hlast
    simp at hlast
  · obtain ⟨s, inner, hs, hitem⟩ := Encoding.getLast?_symbolsAt_of_items hitems hcovers hafter
    have hsame : s = Outline.Symbol.ofElement lineNumbers t.value := by
      rw [hlast] at hs
      exact (Option.some.inj hs).symm
    rw [hitem, hsame]
    exact ⟨rfl, rfl, rfl⟩

/-- Where there is no element, the written outline shows none. -/
theorem points_null (hlaid : Markup.Laid lo hi (Forest.map Markup.sketchOf forest))
    (lineNumbers : Bool) {p : Position} (h : Lookup.elementAt p forest = none) :
    Points (Encoding.symbolItems 0 (Outline.ofForest lineNumbers forest)) p .null := by
  have hlast := getLast?_symbolsAt hlaid lineNumbers p
  rw [h] at hlast
  refine ⟨⟨fun _ => ?_, fun _ => rfl⟩, fun before item after hitems hcovers hafter => ?_⟩
  · exact Encoding.symbolsAt_eq_nil_iff.1 (List.getLast?_eq_none_iff.1 hlast)
  · obtain ⟨s, inner, hs, -⟩ := Encoding.getLast?_symbolsAt_of_items hitems hcovers hafter
    rw [hlast] at hs
    simp at hs

/-- If the outline of a document can be written, then so can the element under any position. -/
theorem points_answer (r : Request) (lineNumbers : Bool) {p : Position}
    (hsize : isTooLarge maxKb r.document.text = false)
    (houtcome : r.outcome Markup.read = .ok forest)
    (hlaid : Markup.Laid lo hi (Forest.map Markup.sketchOf forest))
    (hlevels : Forest.levels forest ≤ 252) (hquery : r.query = .elementAt p) :
    ∃ element description,
      (answer maxKb Markup.read r).verdict = (200, .object [("uri", .ofSent r.uri),
        ("element", element), ("description", description)]) ∧
      Points (Encoding.symbolItems 0 (Outline.ofForest lineNumbers forest)) p element := by
  have hverdict := verdict_answer Markup.read r hsize
  rw [houtcome, Request.verdictOf, hquery, Query.body?] at hverdict
  cases hfound : Lookup.elementAt p forest with
  | none =>
    rw [hfound] at hverdict
    exact ⟨.null, .null, hverdict, points_null hlaid lineNumbers hfound⟩
  | some t =>
    have hwritten : t.levels ≤ maxElementLevels := by
      have hle := levels_le_of_elementAt_eq_some hlaid hfound
      have hmax : maxElementLevels = 253 := rfl
      omega
    rw [hfound] at hverdict
    simp only [Encoding.element?_eq, if_pos hwritten] at hverdict
    exact ⟨_, _, hverdict, points_elementAt hlaid lineNumbers hfound⟩

end

/-! ## Three requests -/

variable {flag : Json} {payload : List (String × Json)} {r : Request}

/-- What is said of line numbers has no part in what document is brought. -/
theorem read_listing_of_read_outline (h : Request.read .outline
    (some (.object (("show_line_numbers", flag) :: payload))) = .ok r) :
    Request.read .listing (some (.object payload)) = .ok { r with query := .listing } := by
  obtain ⟨hbrings, _⟩ := read_eq_ok_iff.1 h
  refine read_eq_ok_iff.2 ⟨hbrings.congr ?_ _, rfl⟩
  simp [Json.field?, List.lookup_cons]

theorem read_elementAt_of_read_outline (h : Request.read .outline
    (some (.object (("show_line_numbers", flag) :: payload))) = .ok r) (line column : Nat) :
    Request.read .elementAt (some (.object
      (("line", .integer line) :: ("column", .integer column) :: payload))) =
        .ok { r with query := .elementAt ⟨line, column⟩ } := by
  obtain ⟨hbrings, _⟩ := read_eq_ok_iff.1 h
  refine read_eq_ok_iff.2 ⟨hbrings.congr ?_ _,
    read_elementAt_eq_ok_iff.2 ⟨line, column, ?_, ?_, rfl⟩⟩
  · simp [Json.field?, List.lookup_cons]
  · exact Field.result_read_eq_ok_iff.2 (Field.natural_ofNat line)
  · exact Field.result_read_eq_ok_iff.2 (Field.natural_ofNat column)

theorem exists_boolean_of_read_outline (h : Request.read .outline
    (some (.object (("show_line_numbers", flag) :: payload))) = .ok r) :
    ∃ lineNumbers, Field.boolean flag = .ok lineNumbers ∧ r.query = .outline lineNumbers := by
  obtain ⟨_, hquery⟩ := read_eq_ok_iff.1 h
  obtain ⟨lineNumbers, hflag, hr⟩ := Field.Checked.result_map_eq_ok_iff.1 hquery
  exact ⟨lineNumbers, Field.result_read_eq_ok_iff.1 hflag, hr.symm⟩

/-- All that is answered with 200 has been read, has a proper text and name, and is not too
large. -/
theorem exists_request_of_status {maxKb : Int} {reader : Markup.Reader} {endpoint : Endpoint}
    {body : Option Json} (h : (respond maxKb reader endpoint body).status = 200) :
    ∃ r text uri, Request.read endpoint body = .ok r ∧ r.text = .text text ∧ r.uri = .text uri ∧
      isTooLarge maxKb r.document.text = false ∧
      respond maxKb reader endpoint body = .answered (answer maxKb reader r) := by
  unfold respond at h ⊢
  cases hread : Request.read endpoint body with
  | error problems => simp [hread, Outcome.status] at h
  | ok r =>
    rw [hread] at h
    obtain ⟨text, uri, htext, huri, hhandle⟩ := exists_text_of_status_handle h
    refine ⟨r, text, uri, rfl, htext, huri, ?_, hhandle⟩
    cases hsize : isTooLarge maxKb r.document.text with
    | false => rfl
    | true =>
      have h400 : (answer maxKb reader r).status = 400 :=
        congrArg (·.1) (verdict_answer_of_isTooLarge reader r hsize)
      dsimp only at h
      rw [hhandle] at h
      exact absurd (h.symm.trans h400) (by decide)

/-- What is sent to a request that is read, about a document with a proper text and name. -/
theorem verdict_respond {maxKb : Int} {reader : Markup.Reader} {endpoint : Endpoint}
    {body : Option Json} {text uri : String} {verdict : Nat × Json}
    (hread : Request.read endpoint body = .ok r) (htext : r.text = .text text)
    (huri : r.uri = .text uri) (h : (answer maxKb reader r).verdict = verdict) :
    (respond maxKb reader endpoint body).verdict = (verdict.1, some verdict.2) := by
  rw [respond, hread, ← h]
  dsimp only
  rw [handle_of_text htext huri]
  rfl

/-- Where the outline of a document is written, with or without line numbers, everything else that
can be asked about the document is answered, and the answers agree.

* The outline counts its symbols, and there is an item of the listing for each of them.
* The symbols, brought into pre-order, and the items of the listing correspond one to one: they show
  the same label, kind, level and line, and the detail of a symbol is the tag of the item, with the
  line if line numbers are shown.
* Under any position stands the element of the last symbol whose range contains the position, or
  none if there is no such symbol. -/
theorem endpoints_agree (maxKb : Int) (flag : Json) (payload : List (String × Json))
    (h : (respond maxKb Markup.read .outline
      (some (.object (("show_line_numbers", flag) :: payload)))).status = 200) :
    ∃ lineNumbers uri symbols items entries,
      Field.boolean flag = .ok lineNumbers ∧
      (respond maxKb Markup.read .outline
          (some (.object (("show_line_numbers", flag) :: payload)))).verdict =
        (200, some (.object [("uri", .string uri), ("symbols", .array symbols),
          ("element_count", .integer (entries.length : Nat))])) ∧
      (respond maxKb Markup.read .listing (some (.object payload))).verdict =
        (200, some (.object [("uri", .string uri), ("symbols", .array entries)])) ∧
      Json.Preorder 0 symbols items ∧
      List.Forall₂ (SameItem lineNumbers) items entries ∧
      ∀ line column : Nat, ∃ element description,
        (respond maxKb Markup.read .elementAt (some (.object
            (("line", .integer line) :: ("column", .integer column) :: payload)))).verdict =
          (200, some (.object [("uri", .string uri), ("element", element),
            ("description", description)])) ∧
        Points items ⟨line, column⟩ element := by
  obtain ⟨r, text, uri, hread, htext, huri, hsize, hanswer⟩ := exists_request_of_status h
  obtain ⟨lineNumbers, hflag, hquery⟩ := exists_boolean_of_read_outline hread
  obtain ⟨forest, lo, hi, houtcome, hlaid⟩ := exists_laid_outcome r
  have hstatus : (answer maxKb Markup.read r).status = 200 := by
    rw [hanswer] at h
    exact h
  obtain ⟨hlevels, hbody⟩ := body_answer_outline hsize houtcome hquery hstatus
  have hname : Json.string uri = .ofSent r.uri := by
    rw [huri]
    rfl
  refine ⟨lineNumbers, uri, Forest.fold Encoding.symbol (Outline.ofForest lineNumbers forest),
    Encoding.symbolItems 0 (Outline.ofForest lineNumbers forest),
    (Listing.ofForest forest).map Encoding.entry, hflag, ?_, ?_,
    Encoding.preorder_symbolItems _ 0, Encoding.forall₂_sameItem lineNumbers forest,
    fun line column => ?_⟩
  · have hverdict : (answer maxKb Markup.read r).verdict = (200, _) := Prod.ext hstatus hbody
    rw [hname, List.length_map]
    exact verdict_respond hread htext huri hverdict
  · have hverdict := verdict_answer Markup.read { r with query := .listing } hsize
    have hsame : { r with query := .listing }.outcome Markup.read = r.outcome Markup.read := rfl
    rw [hsame, houtcome] at hverdict
    rw [hname]
    exact verdict_respond (read_listing_of_read_outline hread) htext huri hverdict
  · obtain ⟨element, description, hverdict, hpoints⟩ :=
      points_answer { r with query := .elementAt ⟨line, column⟩ } lineNumbers hsize houtcome hlaid
        hlevels rfl
    rw [hname]
    exact ⟨element, description,
      verdict_respond (read_elementAt_of_read_outline hread line column) htext huri hverdict,
      hpoints⟩

/-- The outline of a button on a panel as it is answered, and the button in it that is under a
position in its tag. -/
theorem endpoints_agree_button :
    let payload := [("text", .string "<Grid>\n  <Button Content=\"Go\"/>\n</Grid>")]
    let range (line column lastLine lastColumn : Int) : Json := .object
      [("start", .array [.integer line, .integer column]),
       ("end", .array [.integer lastLine, .integer lastColumn])]
    let button : Json := .object [("name", .string "[Button \"Go\"]"),
      ("detail", .string "Button (line 2)"), ("kind", .string "function"),
      ("range", range 1 2 1 24), ("selection_range", range 1 3 1 9), ("children", .array [])]
    let grid : Json := .object [("name", .string "[Grid]"),
      ("detail", .string "Grid (line 1)"), ("kind", .string "package"),
      ("range", range 0 0 2 7), ("selection_range", range 0 1 0 5), ("children", .array [button])]
    (respond 2048 Markup.read .outline
      (some (.object (("show_line_numbers", .bool true) :: payload)))).verdict =
        (200, some (.object [("uri", .string "untitled.axaml"), ("symbols", .array [grid]),
          ("element_count", .integer 2)])) ∧
    ∃ element description,
      (respond 2048 Markup.read .elementAt
          (some (.object (("line", .integer 1) :: ("column", .integer 4) :: payload)))).verdict =
        (200, some (.object [("uri", .string "untitled.axaml"), ("element", element),
          ("description", description)])) ∧
      Points [(0, grid), (1, button)] ⟨1, 4⟩ element := by
  intro payload range button grid
  have hverdict : (respond 2048 Markup.read .outline
      (some (.object (("show_line_numbers", .bool true) :: payload)))).verdict =
        (200, some (.object [("uri", .string "untitled.axaml"), ("symbols", .array [grid]),
          ("element_count", .integer 2)])) := by
    let r : Request := ⟨.text "<Grid>\n  <Button Content=\"Go\"/>\n</Grid>", .text "untitled.axaml",
      none, 0, false, .outline true⟩
    have hshown : (r.outcome Markup.read).toOption.map
        (fun forest => (Outline.ofForest true forest, (Listing.ofForest forest).length)) =
        some ([⟨⟨"[Grid]", "Grid (line 1)", .panel, ⟨⟨0, 0⟩, ⟨2, 7⟩, by decide⟩,
            ⟨⟨0, 1⟩, ⟨0, 5⟩, by decide⟩⟩,
          [⟨⟨"[Button \"Go\"]", "Button (line 2)", .control, ⟨⟨1, 2⟩, ⟨1, 24⟩, by decide⟩,
            ⟨⟨1, 3⟩, ⟨1, 9⟩, by decide⟩⟩, []⟩]⟩], 2) := by
      decide +kernel
    have hstatus : (answer 2048 Markup.read r).status = 200 := by decide +kernel
    obtain ⟨forest, _, _, houtcome, _⟩ := exists_laid_outcome r
    obtain ⟨_, hbody⟩ := body_answer_outline (by decide) houtcome rfl hstatus
    rw [houtcome] at hshown
    obtain ⟨houtline, hcount⟩ := Prod.mk.inj (Option.some.inj hshown)
    rw [houtline, hcount, Forest.fold_cons, Forest.fold_cons, Forest.fold_nil] at hbody
    have hanswer : (answer 2048 Markup.read r).verdict = (200, _) := Prod.ext hstatus hbody
    exact verdict_respond rfl rfl rfl hanswer
  obtain ⟨_, uri, symbols, items, entries, -, houtline, -, hitems, -, hpoints⟩ :=
    endpoints_agree 2048 (.bool true) payload (congrArg Prod.fst hverdict)
  have hordered : Json.Preorder 0 [grid] [(0, grid), (1, button)] :=
    .cons rfl (.cons rfl (.nil 2) (.nil 1)) (.nil 0)
  rw [hverdict] at houtline
  simp only [Prod.mk.injEq, Option.some.injEq, Json.object.injEq, List.cons.injEq,
    Json.string.injEq, Json.array.injEq, true_and] at houtline
  obtain ⟨rfl, rfl, -⟩ := houtline
  rw [← hitems.unique hordered]
  exact ⟨hverdict, hpoints 1 4⟩

end MarkupOutline.Service
