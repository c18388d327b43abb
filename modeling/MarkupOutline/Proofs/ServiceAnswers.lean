import MarkupOutline.Proofs.Levels
import MarkupOutline.Proofs.SessionCalls
import MarkupOutline.Service.Response

/-!
# Answers of the service

Every request is answered by a session of its own, whose slot is empty at first. So the status and
the body of the answer come from what reading the document gives, and from nothing else
(`verdict_answer`): a failure is reported, and a forest is shown as the question asks for it, unless
it has too many levels to be written.
-/

namespace MarkupOutline.Service

open Session

/-! ## What an answer says -/

/-- The status and the body of an answer. -/
def Response.verdict (a : Response) : Nat × Json :=
  (a.status, a.body)

/-- The body of the answer about a forest, nothing if it has too many levels to be written. -/
def Query.body? (uri : Json) (forest : Forest Element) : Query → Option Json
  | outline lineNumbers =>
    (Encoding.outline? (Outline.ofForest lineNumbers forest)).map fun symbols =>
      .object [("uri", uri), ("symbols", symbols),
        ("element_count", .ofNat (Forest.count forest))]
  | listing =>
    some (.object [("uri", uri),
      ("symbols", Encoding.listing (Listing.ofForest forest))])
  | elementAt p =>
    match Lookup.elementAt p forest with
    | none =>
      some (.object [("uri", uri), ("element", .null), ("description", .null)])
    | some t => (Encoding.element? maxElementLevels t).map fun element =>
        .object [("uri", uri), ("element", element),
          ("description", .string (Element.describe t))]

/-- The body of an answer in which nothing is shown. -/
def Query.emptyBody (uri : Json) : Query → Json
  | outline _ =>
    .object [("uri", uri), ("symbols", .array []), ("element_count", .integer 0)]
  | listing => .object [("uri", uri), ("symbols", .array [])]
  | elementAt _ => .object [("uri", uri), ("element", .null), ("description", .null)]

/-- An outline without symbols is written. -/
theorem outline?_nil : Encoding.outline? [] = some (.array []) := by
  rw [Encoding.outline?_eq, Forest.levels_nil, if_pos (Nat.zero_le _), Forest.fold_nil]

/-- Of an empty forest nothing is shown. -/
theorem Query.body?_nil (uri : Json) (q : Query) : q.body? uri [] = some (q.emptyBody uri) := by
  cases q with
  | outline lineNumbers =>
    rw [body?, Outline.ofForest_eq_map, Forest.map_nil, outline?_nil, Forest.count_eq_size,
      Forest.size_nil]
    rfl
  | listing =>
    rw [body?, Listing.ofForest, Forest.walk, Forest.walkFrom_nil]
    rfl
  | elementAt p =>
    rw [body?, Lookup.elementAt_nil]
    rfl

/-- What is said when there is a body to be written, or none. -/
def verdictOf : Option Json → Nat × Json
  | some body => (200, body)
  | none => (500, errorBody ("Error serializing result: " ++ Encoding.tooDeep))

/-- What is said about a document that has been read. -/
def Request.verdictOf (r : Request) : Except Markup.Failure (Forest Element) → Nat × Json
  | .error f => (500, errorBody (failureMessage f))
  | .ok forest => Service.verdictOf (r.query.body? (.ofSent r.uri) forest)

/-- The document of a request is looked into. -/
def Request.isTaken (r : Request) : Bool :=
  !r.detect || Detector.markup.accepts r.document

/-- What a reader makes of the document of a request. One that is not looked into is as good as
empty. -/
def Request.outcome (reader : Markup.Reader) (r : Request) :
    Except Markup.Failure (Forest Element) :=
  if r.isTaken then (reader false r.document.text).outcome else .ok []

theorem verdict_written (uri : String) (records : List Log.Record) (body? : Option Json) :
    (written uri records body?).verdict = verdictOf body? := by
  cases body? with
  | none => rfl
  | some body => rfl

/-! ## The session of a request -/

variable {reader : Markup.Reader} {r : Request} {lineNumbers : Bool}

theorem accepts_sessionFor (r : Request) :
    (sessionFor r).detector.accepts r.document = r.isTaken := by
  unfold sessionFor Request.isTaken
  cases r.detect with
  | false => simp [new, Detector.accepts]
  | true => rfl

theorem held?_sessionFor (r : Request) : (sessionFor r).held? r.document = none := by
  cases hheld : (sessionFor r).held? r.document with
  | none => rfl
  | some forest => exact absurd (held?_eq_some_iff.1 hheld).2.1 (by simp [sessionFor, new, Cache.empty])

/-- The session of a request reads leniently, and nothing is in its slot. -/
theorem load_sessionFor (reader : Markup.Reader) (r : Request) :
    (sessionFor r).load reader r.document = ((reader false r.document.text).outcome,
      (sessionFor r).remember r.document (reader false r.document.text).outcome,
      (reader false r.document.text).notices.map Markup.Notice.record) :=
  load_of_not_held (held?_sessionFor r) reader

/-- What may come of a view in the session of a request. -/
theorem view_sessionFor_cases {α : Type} (reader : Markup.Reader) (r : Request)
    (operation : String) (blank : α)
    (build : Session → Forest Element → α × Session × List Log.Record) :
    (r.isTaken = false ∧ (sessionFor r).view reader operation blank build r.document =
      ⟨blank, sessionFor r, [], [skipped operation r.document]⟩) ∨
    (∃ forest records, r.isTaken = true ∧ (reader false r.document.text).outcome = .ok forest ∧
      (sessionFor r).view reader operation blank build r.document =
        ⟨(build ((sessionFor r).remember r.document (.ok forest)) forest).1,
          (build ((sessionFor r).remember r.document (.ok forest)) forest).2.1, [], records⟩) ∨
    ∃ f s records, r.isTaken = true ∧ (reader false r.document.text).outcome = .error f ∧
      (sessionFor r).view reader operation blank build r.document =
        ⟨blank, s, [failureMessage f], records⟩ := by
  have haccepts := accepts_sessionFor r
  cases htaken : r.isTaken with
  | false =>
    rw [htaken] at haccepts
    exact .inl ⟨rfl, view_of_not_accepts haccepts⟩
  | true =>
    rw [htaken] at haccepts
    have hload := load_sessionFor reader r
    cases houtcome : (reader false r.document.text).outcome with
    | ok forest =>
      rw [houtcome] at hload
      exact .inr (.inl ⟨forest, _, rfl, rfl, view_of_load_ok haccepts hload⟩)
    | error f =>
      rw [houtcome] at hload
      exact .inr (.inr ⟨f, _, _, rfl, rfl, view_of_load_error haccepts hload⟩)

/-! ## One question -/

theorem outcome_of_taken (h : r.isTaken = true) :
    r.outcome reader = (reader false r.document.text).outcome := by
  rw [Request.outcome, if_pos h]

theorem outcome_of_not_taken (h : r.isTaken = false) : r.outcome reader = .ok [] := by
  rw [Request.outcome, if_neg (by simp [h])]

/-- Nothing is shown of a document that is not looked into. -/
theorem verdictOf_outcome_of_not_taken (h : r.isTaken = false) :
    r.verdictOf (r.outcome reader) = (200, r.query.emptyBody (.ofSent r.uri)) := by
  rw [outcome_of_not_taken h, Request.verdictOf, Query.body?_nil]
  rfl

/-- The listing needs nothing but the forest. -/
theorem verdict_answerListing (h : r.query = .listing) :
    (answerListing reader r).verdict = r.verdictOf (r.outcome reader) := by
  rw [answerListing, Session.listing]
  obtain ⟨htaken, hview⟩ | ⟨forest, records, htaken, houtcome, hview⟩ |
      ⟨f, s, records, htaken, houtcome, hview⟩ := view_sessionFor_cases reader r "symbols" []
        (fun s f => (Listing.ofForest f, s, []))
  · rw [hview, verdictOf_outcome_of_not_taken htaken, h]
    rfl
  · rw [hview, outcome_of_taken htaken, houtcome, Request.verdictOf, h]
    rfl
  · rw [hview, outcome_of_taken htaken, houtcome]
    rfl

theorem verdict_answerElement {p : Position} (h : r.query = .elementAt p) :
    (answerElement reader r p).verdict = r.verdictOf (r.outcome reader) := by
  rw [answerElement, Session.elementAt]
  obtain ⟨htaken, hview⟩ | ⟨forest, records, htaken, houtcome, hview⟩ |
      ⟨f, s, records, htaken, houtcome, hview⟩ := view_sessionFor_cases reader r "element_at" none
        (fun s f => (Lookup.elementAt p f, s, []))
  · rw [hview, verdictOf_outcome_of_not_taken htaken, h]
    rfl
  · rw [hview, outcome_of_taken htaken, houtcome, Request.verdictOf, h, Query.body?]
    dsimp only [Request.orFail]
    cases Lookup.elementAt p forest with
    | none => rfl
    | some t => exact verdict_written _ _ _
  · rw [hview, outcome_of_taken htaken, houtcome]
    rfl

/-- The forest in the slot is at hand again. -/
theorem value_forest_of_held {s : Session} {d : Document} {forest : Forest Element}
    (haccepts : s.detector.accepts d = true) (hheld : s.held? d = some forest) :
    (s.forest reader d).value = forest := by
  rw [Session.forest, view_of_load_ok haccepts (load_of_held hheld reader)]

/-- Making the outline of a forest that has just been read leaves the forest in the slot. -/
theorem buildOutline_remember (h : r.query = .outline lineNumbers) (forest : Forest Element) :
    ∃ s records, buildOutline r.document ((sessionFor r).remember r.document (.ok forest)) forest =
        (Outline.ofForest lineNumbers forest, s, records) ∧
      s.detector = (sessionFor r).detector ∧ s.held? r.document = some forest := by
  have hlineNumbers : (sessionFor r).lineNumbers = lineNumbers := by
    rw [sessionFor, h]
    rfl
  rw [← hlineNumbers]
  exact ⟨_, _, rfl, rfl, held?_eq_some_iff.2 ⟨rfl, rfl, rfl⟩⟩

/-- No elements are counted for an outline without symbols, and there are none. -/
theorem ite_isEmpty_ofForest_eq_count (lineNumbers : Bool) (forest : Forest Element) :
    (if (Outline.ofForest lineNumbers forest).isEmpty then 0 else Forest.count forest) =
      Forest.count forest := by
  cases forest with
  | nil =>
    rw [Outline.ofForest_eq_map, Forest.map_nil, Forest.count_eq_size, Forest.size_nil]
    rfl
  | cons t ts =>
    rw [Outline.ofForest_eq_map, Forest.map_cons]
    rfl

/-- The elements are counted on the forest that the outline is made of. -/
theorem verdict_answerOutline (h : r.query = .outline lineNumbers) :
    (answerOutline reader r).verdict = r.verdictOf (r.outcome reader) := by
  rw [answerOutline, Session.outline, if_neg Bool.false_ne_true]
  obtain ⟨htaken, hview⟩ | ⟨forest, records, htaken, houtcome, hview⟩ |
      ⟨f, s, records, htaken, houtcome, hview⟩ := view_sessionFor_cases reader r "outline" []
        (buildOutline r.document)
  · rw [hview, verdictOf_outcome_of_not_taken htaken, h]
    refine (verdict_written _ _ _).trans ?_
    rw [outline?_nil]
    rfl
  · obtain ⟨s, more, hbuild, hdetector, hheld⟩ := buildOutline_remember h forest
    rw [hbuild] at hview
    have haccepts : s.detector.accepts r.document = true := by
      rw [hdetector, accepts_sessionFor, htaken]
    have helements : (if (Outline.ofForest lineNumbers forest).isEmpty then 0
        else Forest.count (s.forest reader r.document).value) = Forest.count forest := by
      rw [value_forest_of_held haccepts hheld, ite_isEmpty_ofForest_eq_count]
    rw [hview, outcome_of_taken htaken, houtcome, Request.verdictOf, h, Query.body?, ← helements]
    exact verdict_written _ _ _
  · rw [hview, outcome_of_taken htaken, houtcome]
    rfl

/-! ## All questions -/

/-- A document that is not too large is answered by what reading it gives. -/
theorem verdict_answer {maxKb : Int} (reader : Markup.Reader) (r : Request)
    (h : isTooLarge maxKb r.document.text = false) :
    (answer maxKb reader r).verdict = r.verdictOf (r.outcome reader) := by
  rw [answer, if_neg (by simp [h])]
  cases hquery : r.query with
  | outline lineNumbers => exact verdict_answerOutline hquery
  | listing => exact verdict_answerListing hquery
  | elementAt p => exact verdict_answerElement hquery

theorem verdict_answer_of_isTooLarge {maxKb : Int} (reader : Markup.Reader) (r : Request)
    (h : isTooLarge maxKb r.document.text = true) :
    (answer maxKb reader r).verdict = (400, errorBody (sizeMessage maxKb r.document.text)) := by
  rw [answer, if_pos h]
  rfl

end MarkupOutline.Service
