import MarkupOutline.Proofs.ErrorBoundary
import MarkupOutline.Proofs.RequestFields
import MarkupOutline.Proofs.Sending

/-!
# The status of an answer

Four things can keep a request from being answered: a field does not fit, the document is too large,
it cannot be read, or the answer has too many levels to be written. They are looked at in this
order, and the status tells which it was, but for the last two (`respond_classified`). Reading
leniently never fails, so with a reader that works it is only the levels. All this is so for strings
that are texts: a garbled text is in the way before its size is known, and a garbled name once all
else has gone well, and then no body says so (`respond_unencodable`).
-/

namespace MarkupOutline.Service

open Session

/-! ## Levels -/

/-- The answer to a question about a forest has no more levels than can be written. -/
def Query.fits (forest : Forest Element) : Query → Bool
  | outline _ => Forest.levels forest ≤ 252
  | listing => true
  | elementAt p => (Lookup.elementAt p forest).all fun t => t.levels ≤ 253

theorem Query.isSome_body? (uri : Json) (forest : Forest Element) (q : Query) :
    (q.body? uri forest).isSome = q.fits forest := by
  cases q with
  | outline lineNumbers =>
    rw [body?, Option.isSome_map, Encoding.outline?_eq, Outline.levels_ofForest, fits,
      Encoding.maxOutlineLevels]
    split
    · next h => simp [h]
    · next h => simp [h]
  | listing => rfl
  | elementAt p =>
    rw [body?, fits]
    cases Lookup.elementAt p forest with
    | none => rfl
    | some t =>
      rw [Option.all_some, Option.isSome_map, Encoding.element?_eq, maxElementLevels]
      split
      · next h => simp [h]
      · next h => simp [h]

/-! ## One answer -/

variable {reader : Markup.Reader} {r : Request}

theorem isTooLarge_iff {maxKb : Int} {text : String} :
    isTooLarge maxKb text = true ↔ 1024 * maxKb < text.utf8ByteSize :=
  decide_eq_true_iff

/-- A forest is shown if its levels can be written. -/
theorem status_verdictOf_ok (r : Request) (forest : Forest Element) :
    (r.verdictOf (.ok forest)).1 = if r.query.fits forest then 200 else 500 := by
  rw [Request.verdictOf, ← r.query.isSome_body? (.ofSent r.uri)]
  cases r.query.body? (.ofSent r.uri) forest with
  | none => rfl
  | some body => rfl

/-- A document that is not too large gets an answer, or a failure with its message. -/
theorem verdictOf_cases (r : Request) (outcome : Except Markup.Failure (Forest Element)) :
    (r.verdictOf outcome).1 = 200 ∨
      ∃ message, r.verdictOf outcome = (500, errorBody message) := by
  cases outcome with
  | error f => exact .inr ⟨_, rfl⟩
  | ok forest =>
    rw [Request.verdictOf]
    cases r.query.body? (.ofSent r.uri) forest with
    | none => exact .inr ⟨_, rfl⟩
    | some body => exact .inl rfl

/-- Reading leniently never fails. -/
theorem exists_outcome_read_false (text : String) :
    ∃ forest, (Markup.read false text).outcome = .ok forest := by
  obtain ⟨forest, hforest⟩ := Markup.exists_map_sketchOf_eq_prune text
  exact ⟨forest, Markup.outcome_read_false hforest⟩

/-- The status of an answer and what its body is, with a reader that works or else breaks off. -/
structure Classified (maxKb : Int) (broken : Option String) (r : Request) (a : Response) :
    Prop where
  tooLarge : a.status = 400 ↔ 1024 * maxKb < r.document.text.utf8ByteSize
  skipped : r.document.text.utf8ByteSize ≤ 1024 * maxKb → r.isTaken = false →
    a.status = 200 ∧ a.body = r.query.emptyBody (.ofSent r.uri)
  unreadable : r.document.text.utf8ByteSize ≤ 1024 * maxKb → r.isTaken = true →
    broken.isSome → a.status = 500
  read : r.document.text.utf8ByteSize ≤ 1024 * maxKb → r.isTaken = true → broken = none →
    ∃ forest, (Markup.read false r.document.text).outcome = .ok forest ∧
      a.status = if r.query.fits forest then 200 else 500
  failed : a.status ≠ 200 → ∃ message, a.body = .object [("error", .string message)]

/-- The size is looked at before anything else. -/
theorem classified_of_isTooLarge {maxKb : Int} {broken : Option String} {a : Response}
    {message : String} (hsize : isTooLarge maxKb r.document.text = true)
    (h : a.verdict = (400, errorBody message)) : Classified maxKb broken r a := by
  have hlarge := isTooLarge_iff.1 hsize
  obtain ⟨hstatus, hbody⟩ := Prod.mk.inj h
  refine ⟨⟨fun _ => hlarge, fun _ => hstatus⟩, fun hsmall => ?_, fun hsmall => ?_,
    fun hsmall => ?_, fun _ => ⟨message, hbody⟩⟩
  all_goals exact absurd hsmall (Int.not_le.2 hlarge)

/-- Then comes detection, then reading, and at last the levels. -/
theorem classified_of_verdictOf {maxKb : Int} {broken : Option String} {a : Response}
    (hsize : isTooLarge maxKb r.document.text = false)
    (h : a.verdict = r.verdictOf (r.outcome (readerOf broken))) : Classified maxKb broken r a := by
  have hstatus : a.status = (r.verdictOf (r.outcome (readerOf broken))).1 := congrArg (·.1) h
  refine ⟨?_, fun _ hskipped => ?_, fun _ htaken hbroken => ?_, fun _ htaken hworks => ?_,
    fun hfailed => ?_⟩
  · have hsmall : ¬ 1024 * maxKb < r.document.text.utf8ByteSize := by
      rw [← isTooLarge_iff, hsize]
      exact Bool.false_ne_true
    refine ⟨fun h400 => absurd h400 ?_, fun hlarge => absurd hlarge hsmall⟩
    rcases verdictOf_cases r (r.outcome (readerOf broken)) with h200 | ⟨message, h500⟩
    · simp [hstatus, h200]
    · simp [hstatus, h500]
  · rw [verdictOf_outcome_of_not_taken hskipped] at h
    exact Prod.mk.inj h
  · obtain ⟨reason, rfl⟩ := Option.isSome_iff_exists.1 hbroken
    rw [hstatus, outcome_of_taken htaken]
    rfl
  · obtain ⟨forest, hforest⟩ := exists_outcome_read_false r.document.text
    refine ⟨forest, hforest, ?_⟩
    rw [hstatus, outcome_of_taken htaken, hworks, readerOf, hforest, status_verdictOf_ok]
  · rcases verdictOf_cases r (r.outcome (readerOf broken)) with h200 | ⟨message, h500⟩
    · exact absurd (hstatus.trans h200) hfailed
    · exact ⟨message, congrArg (·.2) (h.trans h500)⟩

theorem classified_answer (maxKb : Int) (broken : Option String) (r : Request) :
    Classified maxKb broken r (answer maxKb (readerOf broken) r) := by
  cases hsize : isTooLarge maxKb r.document.text with
  | true => exact classified_of_isTooLarge hsize (verdict_answer_of_isTooLarge _ r hsize)
  | false => exact classified_of_verdictOf hsize (verdict_answer _ r hsize)

/-- What becomes of a request that has been read. -/
structure Settled (maxKb : Int) (broken : Option String) (r : Request) (outcome : Outcome) :
    Prop where
  answered : ∀ text uri, r.text = .text text → r.uri = .text uri →
    ∃ a, outcome = .answered a ∧ Classified maxKb broken r a
  -- the answer is there, but the name that it begins with, behind the eight characters of its
  -- first key, cannot be encoded
  unnamed : ∀ text s, r.text = .text text → r.uri = .garbled s →
    ∃ a, Classified maxKb broken r a ∧
      outcome = if a.status = 200 then
        .brokenOff (s.unencodable (6 + (Json.writeString s.before).length)) a.records
      else .answered a
  unmeasured : ∀ s, r.text = .garbled s →
    outcome = .brokenOff (s.unencodable s.before.length) []

theorem settled_handle (maxKb : Int) (broken : Option String) (r : Request) :
    Settled maxKb broken r (r.handle maxKb (readerOf broken)) := by
  have hclassified := classified_answer maxKb broken r
  refine ⟨fun text uri htext huri => ⟨_, handle_of_text htext huri, hclassified⟩,
    fun text s htext huri => ⟨_, hclassified, ?_⟩, fun s htext => ?_⟩
  · rw [Request.handle, htext]
    exact send_answer_of_garbled huri
  · rw [Request.handle, htext]

/-- Whatever is sent to an endpoint, and whether the reader works or breaks off, the status that is
sent tells what has become of it.

* It is 422 if a field does not fit. All else is about the requests that are read.
* If the text and the name of the document have an encoding, there is an answer.
  * Its status is 400 exactly if the document has more bytes than the limit allows.
  * A document that is not too large and not looked into gets the empty answer.
  * Any other is answered with 500 if the reader breaks off. If it works, the document is read, and
    the status is 200 if the answer has no more levels than can be written, else 500.
  * An answer without the status 200 says what went wrong, and nothing else.
* If only the name is garbled, it is in the way of an answer with the status 200, and of no other.
* If the text is garbled, there is no answer at all. -/
theorem respond_classified (maxKb : Int) (broken : Option String) (endpoint : Endpoint)
    (body : Option Json) :
    let outcome := respond maxKb (readerOf broken) endpoint body
    match Request.read endpoint body with
    | .ok r => r.query.endpoint = endpoint ∧ Settled maxKb broken r outcome
    | .error _ => outcome.status = 422 := by
  dsimp only
  rw [respond]
  cases hread : Request.read endpoint body with
  | ok r => exact ⟨endpoint_of_read hread, settled_handle maxKb broken r⟩
  | error problems => rfl

/-- A document well below the limit, which the reader has no trouble with, may still get the status
500 and no body: its name or its text ends in a surrogate. -/
theorem respond_unencodable :
    let named : Json := .object
      [("uri", .garbled ⟨"a", ⟨0xD800, by decide⟩, []⟩), ("text", .string "<A/>")]
    let filled : Json := .object [("text", .garbled ⟨"<A/>", ⟨0xD800, by decide⟩, []⟩)]
    ∀ body ∈ [named, filled], (Request.read .listing (some body)).isOk ∧
      (respond 2048 (readerOf none) .listing (some body)).status = 500 ∧
      (respond 2048 (readerOf none) .listing (some body)).body?.isNone := by
  intro named filled
  rw [List.forall_mem_cons, List.forall_mem_singleton]
  decide +kernel

end MarkupOutline.Service
