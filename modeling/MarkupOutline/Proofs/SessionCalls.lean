import MarkupOutline.Session

/-!
# Calls of a session

A session is called to answer a question about a document or to change one of its settings. All
questions are views of the forest of a document (`answer_ask`). The forest comes out of the slot of
the cache, and then it is a hit (`load_of_held`), or else it is read (`load_of_not_held`). Nothing
else happens to the cache, but that an outline may be noted in it (`View.Sound`).
-/

namespace MarkupOutline

/-- The same reply with another value. -/
def Reply.map {α β : Type} (f : α → β) (r : Reply α) : Reply β :=
  ⟨f r.value, r.session, r.messages, r.records⟩

namespace Session

/-! ## Calls and answers -/

/-- A question about a document. -/
inductive Question where
  | forest (d : Document)
  | outline (d : Document)
  | listing (d : Document)
  | elementAt (d : Document) (p : Position)
  | describeAt (d : Document) (p : Position)

/-- A change of the settings of a session, or of its cache. -/
inductive Change where
  | lineNumbers (on : Bool)
  | strict (on : Bool)
  | useCache (on : Bool)
  | detector (detector : Detector)
  | invalidate

/-- What a session can be called for: an answer to a question, an outline that is cancelled before
it has begun, or a change. -/
inductive Call where
  | ask (question : Question)
  | cancelled (d : Document)
  | change (change : Change)

/-- What a call is answered with; a change is answered with the setting of line numbers. -/
inductive Answer where
  | forest (forest : Forest Element)
  | outline (outline : Forest Outline.Symbol)
  | listing (entries : List Listing.Entry)
  | element (found : Option (Tree Element))
  | description (found : Option String)
  | lineNumbers (on : Bool)

/-- The session after a change. -/
def change (s : Session) : Change → Session
  | .lineNumbers on => s.setLineNumbers on
  | .strict on => { s with strict := on }
  | .useCache on => { s with useCache := on }
  | .detector detector => { s with detector := detector }
  | .invalidate => s.invalidate

/-- The reply to a change that leads to this session. -/
def changed (s : Session) : Reply Answer :=
  ⟨.lineNumbers s.lineNumbers, s, [], []⟩

/-- The reply to a call. -/
def answer (reader : Markup.Reader) (s : Session) : Call → Reply Answer
  | .ask (.forest d) => (s.forest reader d).map .forest
  | .ask (.outline d) => (s.outline reader false d).map .outline
  | .ask (.listing d) => (s.listing reader d).map .listing
  | .ask (.elementAt d p) => (s.elementAt reader d p).map .element
  | .ask (.describeAt d p) => (s.describeAt reader d p).map .description
  | .cancelled d => (s.outline reader true d).map .outline
  | .change change => (s.change change).changed

/-! ## Views -/

/-- A question about a document: what is asked, the answer for a forest, the one without a forest,
and how the answer is made. -/
structure View where
  operation : String
  document : Document
  blank : Answer
  respond : Bool → Forest Element → Answer
  build : Session → Forest Element → Answer × Session × List Log.Record

/-- A view that needs nothing but the forest. -/
def View.plain (operation : String) (d : Document) (blank : Answer)
    (respond : Forest Element → Answer) : View where
  operation := operation
  document := d
  blank := blank
  respond _ := respond
  build s forest := (respond forest, s, [])

/-- The outline of a document as a view. -/
def View.outline (d : Document) : View where
  operation := "outline"
  document := d
  blank := .outline []
  respond lineNumbers forest := .outline (Outline.ofForest lineNumbers forest)
  build s forest := (.outline (buildOutline d s forest).1, (buildOutline d s forest).2)

/-- The view that a question asks for. -/
def Question.view : Question → View
  | forest d => .plain "parse" d (.forest []) .forest
  | outline d => .outline d
  | listing d => .plain "symbols" d (.listing []) fun forest => .listing (Listing.ofForest forest)
  | elementAt d p =>
    .plain "element_at" d (.element none) fun forest => .element (Lookup.elementAt p forest)
  | describeAt d p =>
    .plain "element_at" d (.description none) fun forest =>
      .description ((Lookup.elementAt p forest).map Element.describe)

/-- The reply to a view. -/
def answerView (reader : Markup.Reader) (s : Session) (v : View) : Reply Answer :=
  s.view reader v.operation v.blank v.build v.document

theorem map_view {α β : Type} (g : α → β) (reader : Markup.Reader) (operation : String) (blank : α)
    (build : Session → Forest Element → α × Session × List Log.Record) (s : Session)
    (d : Document) :
    (s.view reader operation blank build d).map g =
      s.view reader operation (g blank) (fun s forest => (g (build s forest).1, (build s forest).2))
        d := by
  unfold view
  split
  · split
    · rfl
    · dsimp only
      split
      · rfl
      · rfl
  · rfl

/-- All questions are views. -/
theorem answer_ask (reader : Markup.Reader) (s : Session) (question : Question) :
    s.answer reader (.ask question) = s.answerView reader question.view := by
  cases question with
  | forest d => exact map_view _ _ _ _ _ _ _
  | outline d => exact map_view _ _ _ _ _ _ _
  | listing d => exact map_view _ _ _ _ _ _ _
  | elementAt d p => exact map_view _ _ _ _ _ _ _
  | describeAt d p =>
    exact map_view (Answer.description ∘ Option.map Element.describe) _ _ _ _ _ _

/-- The outline of a forest may have been noted in the cache, if it is in use, and nothing else has
happened. -/
def Noted (forest : Forest Element) (s s' : Session) : Prop :=
  s' = s ∨ s.useCache = true ∧
    s' = { s with cache := s.cache.storeOutline (Outline.ofForest s.lineNumbers forest) }

/-- Making the answer of a view needs no more than the forest, if the cache does not hold another
outline while it is in use, and it does no more to the session than to note the outline; what it
records is no error. -/
structure View.Sound (v : View) : Prop where
  value : ∀ s forest, (s.useCache = true → ∀ outline, s.cache.outline = some outline →
      outline = Outline.ofForest s.lineNumbers forest) →
    (v.build s forest).1 = v.respond s.lineNumbers forest
  session : ∀ s forest, Noted forest s (v.build s forest).2.1
  records : ∀ s forest, ∀ r ∈ (v.build s forest).2.2, r.severity = .debug

theorem View.sound_plain (operation : String) (d : Document) (blank : Answer)
    (respond : Forest Element → Answer) : (View.plain operation d blank respond).Sound where
  value _ _ _ := rfl
  session _ _ := .inl rfl
  records _ _ r hr := by simp [View.plain] at hr

/-- The outline in the slot is shown as it is, or one is made and noted there. -/
theorem buildOutline_cases (d : Document) (s : Session) (forest : Forest Element) :
    (∃ outline, s.useCache = true ∧ s.cache.outline = some outline ∧
      buildOutline d s forest = (outline, s, [])) ∨
    ∃ s', Noted forest s s' ∧
      buildOutline d s forest = (Outline.ofForest s.lineNumbers forest, s',
        [outlined d (Outline.ofForest s.lineNumbers forest).length s.lineNumbers]) := by
  obtain ⟨detector, lineNumbers, useCache, strict, logsMessages, cache⟩ := s
  cases useCache with
  | false => exact .inr ⟨_, .inl rfl, rfl⟩
  | true =>
    cases houtline : cache.outline with
    | none => exact .inr ⟨_, .inr ⟨rfl, rfl⟩, by simp [buildOutline, houtline]⟩
    | some outline => exact .inl ⟨outline, rfl, rfl, by simp [buildOutline, houtline]⟩

theorem View.sound_outline (d : Document) : (View.outline d).Sound where
  value s forest h := by
    show Answer.outline (buildOutline d s forest).1 =
      .outline (Outline.ofForest s.lineNumbers forest)
    rcases buildOutline_cases d s forest with ⟨outline, huse, houtline, hbuild⟩ | ⟨s', _, hbuild⟩
    · rw [hbuild, h huse outline houtline]
    · rw [hbuild]
  session s forest := by
    show Noted forest s (buildOutline d s forest).2.1
    rcases buildOutline_cases d s forest with ⟨outline, _, _, hbuild⟩ | ⟨s', hnoted, hbuild⟩
    · rw [hbuild]
      exact .inl rfl
    · rw [hbuild]
      exact hnoted
  records s forest r hr := by
    change r ∈ (buildOutline d s forest).2.2 at hr
    rcases buildOutline_cases d s forest with ⟨outline, _, _, hbuild⟩ | ⟨s', _, hbuild⟩
    · rw [hbuild] at hr
      simp at hr
    · rw [hbuild] at hr
      rw [List.mem_singleton.1 hr]
      rfl

theorem Question.sound_view (question : Question) : question.view.Sound := by
  cases question with
  | forest d => exact View.sound_plain _ _ _ _
  | outline d => exact View.sound_outline d
  | listing d => exact View.sound_plain _ _ _ _
  | elementAt d p => exact View.sound_plain _ _ _ _
  | describeAt d p => exact View.sound_plain _ _ _ _

/-! ## Reading a document -/

/-- The forest that the slot holds for a document, when the cache is in use. -/
def held? (s : Session) (d : Document) : Option (Forest Element) :=
  if s.useCache ∧ s.cache.key = some (s.keyOf d) then s.cache.forest else none

/-- The session in which a forest has been found in the slot. -/
def hit (s : Session) : Session :=
  { s with cache := { s.cache with hits := s.cache.hits + 1 } }

/-- The session in which a document has been read with the given outcome: when the cache is in use,
the slot is held for the document, with its forest if there is one and without an outline. -/
def remember (s : Session) (d : Document) (outcome : Except Markup.Failure (Forest Element)) :
    Session :=
  { s with
    cache := if s.useCache then
      ⟨some (s.keyOf d), outcome.toOption, none, s.cache.hits, s.cache.misses + 1⟩ else s.cache }

variable {s s' : Session} {d : Document}

theorem remember_of_not_useCache (h : s.useCache = false) (d : Document)
    (outcome : Except Markup.Failure (Forest Element)) : s.remember d outcome = s := by
  rw [remember, if_neg (by simp [h])]

theorem remember_of_useCache (h : s.useCache = true) (d : Document)
    (outcome : Except Markup.Failure (Forest Element)) :
    s.remember d outcome = { s with
      cache := ⟨some (s.keyOf d), outcome.toOption, none, s.cache.hits, s.cache.misses + 1⟩ } := by
  rw [remember, if_pos h]

/-- What the slot holds for a document is its forest. -/
theorem load_of_held {forest : Forest Element} (h : s.held? d = some forest)
    (reader : Markup.Reader) : s.load reader d = (.ok forest, s.hit, []) := by
  unfold held? at h
  split at h
  · next hheld =>
    have hlookup : s.cache.lookup (s.keyOf d) =
        (some forest, { s.cache with hits := s.cache.hits + 1 }) := by
      unfold Cache.lookup
      rw [if_pos hheld.2]
      split
      · next known hknown => rw [Option.some.inj (hknown.symm.trans h)]
      · next hnone => exact absurd (hnone.symm.trans h) (by simp)
    rw [load, if_pos hheld.1, hlookup]
    rfl
  · simp at h

/-- A document that the slot does not hold is read. -/
theorem load_of_not_held (h : s.held? d = none) (reader : Markup.Reader) :
    s.load reader d = ((reader s.strict d.text).outcome,
      s.remember d (reader s.strict d.text).outcome,
      (reader s.strict d.text).notices.map Markup.Notice.record) := by
  unfold held? at h
  cases huse : s.useCache with
  | false =>
    rw [remember_of_not_useCache huse, load, if_neg (by simp [huse])]
  | true =>
    have hlookup : s.cache.lookup (s.keyOf d) =
        (none, ⟨some (s.keyOf d), none, none, s.cache.hits, s.cache.misses + 1⟩) := by
      unfold Cache.lookup
      split
      · next hkey =>
        rw [if_pos ⟨huse, hkey⟩] at h
        rw [h]
      · rfl
    rw [remember_of_useCache huse, load, if_pos huse, hlookup]
    cases houtcome : (reader s.strict d.text).outcome with
    | ok forest => simp [houtcome, Cache.store, keyOf, Except.toOption]
    | error f => simp [houtcome, Except.toOption]

theorem held?_eq_some_iff {forest : Forest Element} :
    s.held? d = some forest ↔
      s.useCache = true ∧ s.cache.key = some (s.keyOf d) ∧ s.cache.forest = some forest := by
  unfold held?
  split
  · next h => simp [h.1, h.2]
  · next h =>
    refine ⟨fun hnone => absurd hnone (by simp), fun hheld => ?_⟩
    exact absurd ⟨hheld.1, hheld.2.1⟩ h

/-! ## Replies to views -/

variable {reader : Markup.Reader} {records : List Log.Record}

section

variable {α : Type} {operation : String} {blank : α}
  {build : Session → Forest Element → α × Session × List Log.Record}

/-- Nothing is looked up for a document that is not taken. -/
theorem view_of_not_accepts (h : s.detector.accepts d = false) :
    s.view reader operation blank build d = ⟨blank, s, [], [skipped operation d]⟩ := by
  rw [view, h]
  rfl

/-- The answer is made from the forest of a document. -/
theorem view_of_load_ok {forest : Forest Element} (h : s.detector.accepts d = true)
    (hload : s.load reader d = (.ok forest, s', records)) :
    s.view reader operation blank build d =
      ⟨(build s' forest).1, (build s' forest).2.1, [], records ++ (build s' forest).2.2⟩ := by
  rw [view, h, hload]
  rfl

/-- A failure is told, or goes into the log when nobody is there to be told. -/
theorem view_of_load_error {f : Markup.Failure} (h : s.detector.accepts d = true)
    (hload : s.load reader d = (.error f, s', records)) :
    s.view reader operation blank build d =
      ⟨blank, s', if s'.logsMessages then [] else [failureMessage f],
        records ++ unreadable operation d ::
          if s'.logsMessages then [messageRecord (failureMessage f)] else []⟩ := by
  rw [view, h, hload]
  cases hlogs : s'.logsMessages with
  | true => simp [hlogs]
  | false => simp [hlogs]

end

variable {v : View}

/-- A view of a document that is not taken changes nothing. -/
theorem answerView_of_not_accepts (h : s.detector.accepts v.document = false) :
    s.answerView reader v = ⟨v.blank, s, [], [skipped v.operation v.document]⟩ :=
  view_of_not_accepts h

theorem answerView_of_load_ok {forest : Forest Element} (h : s.detector.accepts v.document = true)
    (hload : s.load reader v.document = (.ok forest, s', records)) :
    s.answerView reader v =
      ⟨(v.build s' forest).1, (v.build s' forest).2.1, [],
        records ++ (v.build s' forest).2.2⟩ :=
  view_of_load_ok h hload

theorem answerView_of_load_error {f : Markup.Failure}
    (h : s.detector.accepts v.document = true)
    (hload : s.load reader v.document = (.error f, s', records)) :
    s.answerView reader v =
      ⟨v.blank, s', if s'.logsMessages then [] else [failureMessage f],
        records ++ unreadable v.operation v.document ::
          if s'.logsMessages then [messageRecord (failureMessage f)] else []⟩ :=
  view_of_load_error h hload

/-- What a view does to a session. -/
inductive Viewed (reader : Markup.Reader) (s : Session) (v : View) : Session → Prop
  /-- The document is not taken. -/
  | rejected (haccepts : s.detector.accepts v.document = false) : Viewed reader s v s
  /-- The forest is in the slot. -/
  | found {forest : Forest Element} {s' : Session}
      (haccepts : s.detector.accepts v.document = true)
      (hheld : s.held? v.document = some forest) (hnoted : Noted forest s.hit s') :
      Viewed reader s v s'
  /-- The document is read. -/
  | read {forest : Forest Element} {s' : Session}
      (haccepts : s.detector.accepts v.document = true) (hheld : s.held? v.document = none)
      (houtcome : (reader s.strict v.document.text).outcome = .ok forest)
      (hnoted : Noted forest (s.remember v.document (.ok forest)) s') : Viewed reader s v s'
  /-- The document cannot be read. -/
  | failed {f : Markup.Failure} (haccepts : s.detector.accepts v.document = true)
      (hheld : s.held? v.document = none)
      (houtcome : (reader s.strict v.document.text).outcome = .error f) :
      Viewed reader s v (s.remember v.document (.error f))

theorem viewed_answerView (hv : v.Sound) (reader : Markup.Reader) (s : Session) :
    Viewed reader s v (s.answerView reader v).session := by
  cases haccepts : s.detector.accepts v.document with
  | false =>
    rw [answerView_of_not_accepts haccepts]
    exact .rejected haccepts
  | true =>
    cases hheld : s.held? v.document with
    | some forest =>
      rw [answerView_of_load_ok haccepts (load_of_held hheld reader)]
      exact .found haccepts hheld (hv.session s.hit forest)
    | none =>
      have hload := load_of_not_held hheld reader
      cases houtcome : (reader s.strict v.document.text).outcome with
      | ok forest =>
        rw [houtcome] at hload
        rw [answerView_of_load_ok haccepts hload]
        exact .read haccepts hheld houtcome (hv.session _ forest)
      | error f =>
        rw [houtcome] at hload
        rw [answerView_of_load_error haccepts hload]
        exact .failed haccepts hheld houtcome

end Session

end MarkupOutline
