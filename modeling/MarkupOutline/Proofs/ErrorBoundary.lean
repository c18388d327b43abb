import MarkupOutline.Proofs.CacheTransparency
import MarkupOutline.Proofs.InnermostElement
import MarkupOutline.Proofs.Views

/-!
# The error boundary of a session

A session never fails, whatever it has been called for and wherever its reader broke off. A call
that is cancelled or whose document is not taken is over before anything happens. Any other
question that finds nothing in the slot reads the document, and the user is told of a failure once
(`error_boundary`). A failure leaves the slot held for the document, but empty; no call that looks
nothing up fills it again (`forest_eq_none_afterSteps`), so the next look-up is a miss.
-/

namespace MarkupOutline

open Forest

namespace Session

/-! ## What the user is told -/

/-- The messages for the user among some records. -/
def messagesIn (records : List Log.Record) : List String :=
  (records.filter fun r => r = messageRecord r.message).map (·.message)

theorem messagesIn_append (xs ys : List Log.Record) :
    messagesIn (xs ++ ys) = messagesIn xs ++ messagesIn ys := by
  rw [messagesIn, List.filter_append, List.map_append]
  rfl

/-- Among records that are no errors there are no messages. -/
theorem messagesIn_eq_nil {records : List Log.Record}
    (h : Log.above Log.Severity.error.level records = []) : messagesIn records = [] := by
  rw [Log.above, List.filter_eq_nil_iff] at h
  rw [messagesIn, List.map_eq_nil_iff, List.filter_eq_nil_iff]
  intro r hr hmessage
  refine h r hr ?_
  rw [of_decide_eq_true hmessage]
  rfl

theorem messagesIn_messageRecord (message : String) :
    messagesIn [messageRecord message] = [message] := by
  have hself : messageRecord message = messageRecord (messageRecord message).message := rfl
  rw [messagesIn, List.filter_singleton, decide_eq_true hself]
  rfl

/-- What the user is told of a reading with the given outcome. -/
def messagesOf : Except Markup.Failure (Forest Element) → List String
  | .ok _ => []
  | .error f => ["Error parsing AXAML: " ++ f.message]

end Session

/-- All messages for the user, those that went into the log for want of another receiver too. -/
def Reply.notifications {α : Type} (r : Reply α) : List String :=
  r.messages ++ Session.messagesIn r.records

/-- The reply tells nothing and leaves the session as it was. -/
structure Reply.IsIdle {α : Type} (r : Reply α) (s : Session) (blank : α) : Prop where
  value : r.value = blank
  notifications : r.notifications = []
  session : r.session = s

/-- How often something has been looked up in a cache. -/
def Cache.lookups {φ : Type} (c : Cache φ) : Nat :=
  c.hits + c.misses

/-- Every forest that is read can be listed: its lines are counted from 0. -/
theorem Markup.exists_listing_of_outcome_read {strict : Bool} {text : String}
    {forest : Forest Element} (h : (read strict text).outcome = .ok forest) :
    ∃ entries, Listing.ofForest? forest = .ok entries := by
  have hlenient : (read false text).outcome = .ok forest := by
    cases strict with
    | false => exact h
    | true => exact outcome_read_false_of_true h
  obtain ⟨forest', hforest'⟩ := exists_map_sketchOf_eq_prune text
  rw [outcome_read_false hforest', Except.ok.injEq] at hlenient
  rw [hlenient] at hforest'
  refine ⟨_, Listing.ofForest?_eq_ok_iff.2 ⟨fun e he => ?_, rfl⟩⟩
  rw [values_eq_map_subtrees] at he
  obtain ⟨t, ht, rfl⟩ := List.mem_map.1 he
  have hstart := ((laid_of_map_eq_prune hforest').bounds_of_mem_subtrees ht).1
  have horigin : Position.origin.line = 0 := rfl
  rw [Position.le_def] at hstart
  omega

namespace Session

variable {reader : Markup.Reader} {s s' : Session} {v : View} {filledStrict : Option Bool}

/-! ## Questions -/

/-- The document that a question is about. -/
def Question.document : Question → Document
  | forest d => d
  | outline d => d
  | listing d => d
  | elementAt d _ => d
  | describeAt d _ => d

/-- The empty answer to a question. -/
def Question.blank : Question → Answer
  | forest _ => .forest []
  | outline _ => .outline []
  | listing _ => .listing []
  | elementAt _ _ => .element none
  | describeAt _ _ => .description none

@[simp]
theorem Question.view_document (question : Question) :
    question.view.document = question.document := by
  cases question <;> rfl

@[simp]
theorem Question.view_blank (question : Question) : question.view.blank = question.blank := by
  cases question <;> rfl

/-- Whether a call looks something up in the cache. -/
def consults (s : Session) : Call → Bool
  | .ask question => s.useCache && s.detector.accepts question.document
  | .cancelled _ => false
  | .change _ => false

/-! ## One question -/

/-- A question about a document that is not taken is over at once. -/
theorem isIdle_answer_of_not_accepts {question : Question}
    (h : s.detector.accepts question.document = false) :
    (s.answer reader (.ask question)).IsIdle s question.blank := by
  rw [← question.view_document] at h
  rw [answer_ask, answerView_of_not_accepts h]
  exact ⟨question.view_blank, messagesIn_eq_nil rfl, rfl⟩

/-- A question that looks nothing up leaves the session as it is. -/
theorem session_answer_of_not_consults {question : Question}
    (h : s.consults (.ask question) = false) :
    (s.answer reader (.ask question)).session = s := by
  rcases Bool.and_eq_false_iff.1 h with huse | haccepts
  · rw [answer_ask]
    exact (viewed_answerView question.sound_view reader s).eq_of_not_useCache huse
  · exact (isIdle_answer_of_not_accepts haccepts).session

/-- What the slot holds is shown as it is, whatever a reader would make of the document. -/
theorem answer_of_held {question : Question} {forest : Forest Element}
    (haccepts : s.detector.accepts question.document = true)
    (hheld : s.held? question.document = some forest) (reader other : Markup.Reader) :
    s.answer other (.ask question) = s.answer reader (.ask question) := by
  rw [← question.view_document] at haccepts hheld
  rw [answer_ask, answer_ask, answerView_of_load_ok haccepts (load_of_held hheld other),
    answerView_of_load_ok haccepts (load_of_held hheld reader)]

theorem notifications_answerView_of_load_ok {forest : Forest Element} {records : List Log.Record}
    (hv : v.Sound) (haccepts : s.detector.accepts v.document = true)
    (hload : s.load reader v.document = (.ok forest, s', records)) :
    (s.answerView reader v).notifications = [] := by
  have hquiet := above_error_records_load reader s v.document
  rw [hload] at hquiet
  rw [answerView_of_load_ok haccepts hload, Reply.notifications, messagesIn_append,
    messagesIn_eq_nil hquiet,
    messagesIn_eq_nil (Log.above_error_eq_nil (hv.records s' forest))]
  rfl

theorem notifications_answerView_of_load_error {f : Markup.Failure} {records : List Log.Record}
    (haccepts : s.detector.accepts v.document = true)
    (hload : s.load reader v.document = (.error f, s', records)) :
    (s.answerView reader v).notifications = messagesOf (.error f) := by
  have hquiet := above_error_records_load reader s v.document
  rw [hload] at hquiet
  have hunreadable : ∀ more, messagesIn (unreadable v.operation v.document :: more) =
      messagesIn more := by
    intro more
    simp [messagesIn, unreadable, messageRecord]
  rw [answerView_of_load_error haccepts hload, Reply.notifications, messagesIn_append,
    messagesIn_eq_nil hquiet, hunreadable]
  -- the message goes to its receiver, or else into the log
  cases s'.logsMessages with
  | true => exact messagesIn_messageRecord (failureMessage f)
  | false => rfl

/-- Nothing is told of a document whose forest the slot holds. -/
theorem notifications_answer_of_held {question : Question} {forest : Forest Element}
    (haccepts : s.detector.accepts question.document = true)
    (hheld : s.held? question.document = some forest) :
    (s.answer reader (.ask question)).notifications = [] := by
  rw [← question.view_document] at haccepts hheld
  rw [answer_ask]
  exact notifications_answerView_of_load_ok question.sound_view haccepts
    (load_of_held hheld reader)

/-- The outcome of reading a document that the slot does not hold is told. -/
theorem notifications_answer_of_not_held {question : Question}
    (haccepts : s.detector.accepts question.document = true)
    (hheld : s.held? question.document = none) :
    (s.answer reader (.ask question)).notifications =
      messagesOf (reader s.strict question.document.text).outcome := by
  rw [← question.view_document] at haccepts hheld ⊢
  rw [answer_ask]
  have hload := load_of_not_held hheld reader
  cases houtcome : (reader s.strict question.view.document.text).outcome with
  | ok forest =>
    rw [houtcome] at hload
    exact notifications_answerView_of_load_ok question.sound_view haccepts hload
  | error f =>
    rw [houtcome] at hload
    exact notifications_answerView_of_load_error haccepts hload

/-- The empty answer is given when the document cannot be read, and the slot is held for it. -/
theorem value_session_answer_of_error {question : Question} {f : Markup.Failure}
    (haccepts : s.detector.accepts question.document = true)
    (hheld : s.held? question.document = none)
    (houtcome : (reader s.strict question.document.text).outcome = .error f) :
    (s.answer reader (.ask question)).value = question.blank ∧
      (s.answer reader (.ask question)).session = s.remember question.document (.error f) := by
  rw [← question.view_document] at haccepts hheld houtcome ⊢
  have hload := load_of_not_held hheld reader
  rw [houtcome] at hload
  rw [answer_ask, answerView_of_load_error haccepts hload]
  exact ⟨question.view_blank, rfl⟩

/-! ## Look-ups -/

/-- Noting an outline is no look-up. -/
theorem Noted.counts_eq {forest : Forest Element} (h : Noted forest s s') :
    s'.cache.hits = s.cache.hits ∧ s'.cache.misses = s.cache.misses := by
  rcases h with rfl | ⟨_, rfl⟩
  · exact ⟨rfl, rfl⟩
  · exact ⟨rfl, rfl⟩

theorem Noted.lookups_eq {forest : Forest Element} (h : Noted forest s s') :
    s'.cache.lookups = s.cache.lookups := by
  rw [Cache.lookups, h.counts_eq.1, h.counts_eq.2]
  rfl

/-- A document that is read has been looked up, if the cache is in use. -/
theorem lookups_remember (s : Session) (d : Document)
    (outcome : Except Markup.Failure (Forest Element)) :
    (s.remember d outcome).cache.lookups = s.cache.lookups + if s.useCache then 1 else 0 := by
  cases huse : s.useCache with
  | false =>
    rw [remember_of_not_useCache huse]
    rfl
  | true =>
    rw [remember_of_useCache huse]
    exact Nat.add_assoc _ _ 1

theorem Viewed.lookups_eq (h : Viewed reader s v s') :
    s'.cache.lookups = s.cache.lookups +
      if s.useCache && s.detector.accepts v.document then 1 else 0 := by
  cases h with
  | rejected haccepts =>
    rw [haccepts, Bool.and_false]
    rfl
  | found haccepts hheld hnoted =>
    rw [hnoted.lookups_eq, haccepts, (held?_eq_some_iff.1 hheld).1]
    exact Nat.add_right_comm _ 1 _
  | read haccepts hheld houtcome hnoted =>
    rw [hnoted.lookups_eq, lookups_remember, haccepts, Bool.and_true]
  | failed haccepts hheld houtcome =>
    rw [lookups_remember, haccepts, Bool.and_true]

/-- Every call that looks something up is counted once, and no other call. -/
theorem lookups_answer (reader : Markup.Reader) (s : Session) (call : Call) :
    (s.answer reader call).session.cache.lookups =
      s.cache.lookups + if s.consults call then 1 else 0 := by
  cases call with
  | ask question =>
    rw [answer_ask, (viewed_answerView question.sound_view reader s).lookups_eq,
      question.view_document]
    rfl
  | cancelled d => rfl
  | change change =>
    show (s.change change).cache.lookups = s.cache.lookups
    rcases s.cache_change change with h | h
    · rw [h]
    · rw [h]
      rfl

/-- A question is a miss: the slot is looked up in vain, and whatever the reader makes of the
document is told. -/
structure Misses (s : Session) (question : Question) : Prop where
  hits : ∀ reader, (s.answer reader (.ask question)).session.cache.hits = s.cache.hits
  misses : ∀ reader, (s.answer reader (.ask question)).session.cache.misses = s.cache.misses + 1
  reads : ∀ reader, (s.answer reader (.ask question)).notifications =
    messagesOf (reader s.strict question.document.text).outcome

/-- A document that is not in the slot is missed there. -/
theorem Viewed.counts_of_not_held (h : Viewed reader s v s') (huse : s.useCache = true)
    (haccepts : s.detector.accepts v.document = true) (hheld : s.held? v.document = none) :
    s'.cache.hits = s.cache.hits ∧ s'.cache.misses = s.cache.misses + 1 := by
  have hremember : ∀ outcome, (s.remember v.document outcome).cache.hits = s.cache.hits ∧
      (s.remember v.document outcome).cache.misses = s.cache.misses + 1 := by
    intro outcome
    rw [remember_of_useCache huse]
    exact ⟨rfl, rfl⟩
  cases h with
  | rejected hrejected =>
    rw [haccepts] at hrejected
    exact absurd hrejected (by simp)
  | found _ hfound _ =>
    rw [hheld] at hfound
    exact absurd hfound (by simp)
  | read _ _ _ hnoted =>
    rw [hnoted.counts_eq.1, hnoted.counts_eq.2]
    exact hremember _
  | failed _ _ _ => exact hremember _

/-- Nothing is found in an empty slot. -/
theorem misses_of_forest_eq_none {question : Question} (hforest : s.cache.forest = none)
    (h : s.consults (.ask question) = true) : s.Misses question := by
  obtain ⟨huse, haccepts⟩ := Bool.and_eq_true_iff.1 h
  have hheld : s.held? question.document = none := by
    rw [held?, hforest, ite_self]
  have hcounts : ∀ reader,
      (s.answer reader (.ask question)).session.cache.hits = s.cache.hits ∧
        (s.answer reader (.ask question)).session.cache.misses = s.cache.misses + 1 := by
    intro reader
    rw [answer_ask]
    refine (viewed_answerView question.sound_view reader s).counts_of_not_held huse ?_ ?_
    · rw [question.view_document, haccepts]
    · rw [question.view_document, hheld]
  exact ⟨fun reader => (hcounts reader).1, fun reader => (hcounts reader).2,
    fun reader => notifications_answer_of_not_held haccepts hheld⟩

/-! ## Histories -/

/-- The reader of a session: it reads, or else breaks off for a reason. -/
def readerOf : Option String → Markup.Reader
  | none => Markup.read
  | some reason => Markup.brokenReader reason

/-- A call, with the reason for which the reader breaks off while it is answered, if it does. -/
structure Step where
  broken : Option String
  call : Call

/-- The session after some steps. -/
def afterSteps (s : Session) (steps : List Step) : Session :=
  steps.foldl (fun s step => (s.answer (readerOf step.broken) step.call).session) s

/-- In none of the steps is anything looked up. -/
def NeverConsults (s : Session) : List Step → Prop
  | [] => True
  | step :: steps => s.consults step.call = false ∧
      (s.answer (readerOf step.broken) step.call).session.NeverConsults steps

/-- An empty slot stays empty in a call that looks nothing up. -/
theorem forest_eq_none_answer {call : Call} (hforest : s.cache.forest = none)
    (h : s.consults call = false) : (s.answer reader call).session.cache.forest = none := by
  cases call with
  | ask question => rw [session_answer_of_not_consults h, hforest]
  | cancelled d => exact hforest
  | change change =>
    show (s.change change).cache.forest = none
    rcases s.cache_change change with h | h
    · rw [h, hforest]
    · rw [h]
      rfl

/-- An empty slot stays empty as long as nothing is looked up. -/
theorem forest_eq_none_afterSteps {steps : List Step} (hforest : s.cache.forest = none)
    (h : s.NeverConsults steps) : (s.afterSteps steps).cache.forest = none := by
  induction steps generalizing s with
  | nil => exact hforest
  | cons step steps ih => exact ih (forest_eq_none_answer hforest h.1) h.2

/-- A broken reader fills no slot, so the slot stays coherent as for any other reader. -/
theorem Viewed.exists_coherent_of_broken {reason : String}
    (h : Viewed (Markup.brokenReader reason) s v s')
    (hcoherent : s.cache.Coherent reader filledStrict) :
    ∃ filledStrict', s'.cache.Coherent reader filledStrict' := by
  cases h with
  | rejected haccepts => exact ⟨_, hcoherent⟩
  | found haccepts hheld hnoted =>
    have hfound : Viewed reader s v s' := .found haccepts hheld hnoted
    exact ⟨_, hfound.coherent hcoherent⟩
  | read haccepts hheld houtcome hnoted => exact absurd houtcome (by simp [Markup.brokenReader])
  | failed haccepts hheld houtcome =>
    cases huse : s.useCache with
    | false =>
      rw [remember_of_not_useCache huse]
      exact ⟨_, hcoherent⟩
    | true =>
      rw [remember_of_useCache huse]
      exact ⟨none, Cache.coherent_of_eq_none rfl rfl⟩

/-- A step keeps the slot coherent. -/
theorem exists_coherent_answer (hcoherent : s.cache.Coherent Markup.read filledStrict)
    (broken : Option String) (call : Call) :
    ∃ filledStrict',
      (s.answer (readerOf broken) call).session.cache.Coherent Markup.read filledStrict' := by
  have hread := Watched.coherent_next (w := ⟨s, filledStrict⟩) hcoherent call
  cases broken with
  | none => exact ⟨_, hread⟩
  | some reason =>
    cases call with
    | ask question =>
      rw [answer_ask]
      exact (viewed_answerView question.sound_view _ s).exists_coherent_of_broken hcoherent
    | cancelled d => exact ⟨_, hread⟩
    | change change => exact ⟨_, hread⟩

/-- Whatever has been called for, and whenever the reader broke off, the slot is coherent. -/
theorem exists_coherent_afterSteps (hcoherent : s.cache.Coherent Markup.read filledStrict)
    (steps : List Step) :
    ∃ filledStrict', (s.afterSteps steps).cache.Coherent Markup.read filledStrict' := by
  induction steps generalizing s filledStrict with
  | nil => exact ⟨_, hcoherent⟩
  | cons step steps ih =>
    obtain ⟨filledStrict', hstep⟩ := exists_coherent_answer hcoherent step.broken step.call
    exact ih hstep

/-! ## The error boundary -/

/-- The forest that answers a question is at hand. Nothing is told, and nothing is left that could
fail: the forest can be listed. -/
structure Answered (forest : Forest Element) (r : Reply Answer) : Prop where
  notifications : r.notifications = []
  listable : ∃ entries, Listing.ofForest? forest = .ok entries

/-- The document of a question could not be read. The answer is the empty one, and one message
tells why. If the cache is in use, its slot is held for the document without forest and outline,
and the next question to look something up is a miss; else the cache is as it was. -/
structure Failed (s : Session) (question : Question) (f : Markup.Failure) (r : Reply Answer) :
    Prop where
  value : r.value = question.blank
  notifications : r.notifications = ["Error parsing AXAML: " ++ f.message]
  cache : r.session.cache = if s.useCache then
      ⟨some (s.keyOf question.document), none, none, s.cache.hits, s.cache.misses + 1⟩
    else s.cache
  next : s.useCache = true → ∀ steps, r.session.NeverConsults steps →
    ∀ question', (r.session.afterSteps steps).consults (.ask question') = true →
      (r.session.afterSteps steps).Misses question'

theorem failed_answer {question : Question} {f : Markup.Failure}
    (haccepts : s.detector.accepts question.document = true)
    (hheld : s.held? question.document = none)
    (houtcome : (reader s.strict question.document.text).outcome = .error f) :
    s.Failed question f (s.answer reader (.ask question)) := by
  obtain ⟨hvalue, hsession⟩ := value_session_answer_of_error haccepts hheld houtcome
  refine ⟨hvalue, ?_, ?_, fun huse steps hsteps question' hconsults => ?_⟩
  · rw [notifications_answer_of_not_held haccepts hheld, houtcome]
    rfl
  · rw [hsession]
    rfl
  · refine misses_of_forest_eq_none (forest_eq_none_afterSteps ?_ hsteps) hconsults
    rw [hsession, remember_of_useCache huse]
    rfl

/-- Whatever a session has been called for, and whenever its reader broke off, it answers every
call, with its reader at work or broken.

* A call that is cancelled, or whose document is not taken, gets the empty answer; nothing is told,
  and the session is as it was.
* To any other question nothing is told if the slot holds the forest of the document, and then no
  reader is asked; or else if reading the document gives a forest. If reading fails, that is told
  once, and the answer is empty (`Failed`).
* Questions about documents that are taken, asked while the cache is in use, are counted as one hit
  or one miss each, and no other calls are counted. -/
theorem error_boundary (detector : Detector) (lineNumbers useCache strict : Option Bool)
    (logsMessages : Bool) (history : List Step) (broken : Option String) :
    let s := (new detector lineNumbers useCache strict logsMessages).afterSteps history
    let reader := readerOf broken
    (∀ d, (s.answer reader (.cancelled d)).IsIdle s (.outline [])) ∧
    (∀ question, s.detector.accepts question.document = false →
      (s.answer reader (.ask question)).IsIdle s question.blank) ∧
    (∀ question, s.detector.accepts question.document = true →
      match s.held? question.document with
      | some forest => Answered forest (s.answer reader (.ask question)) ∧
          ∀ other, s.answer other (.ask question) = s.answer reader (.ask question)
      | none =>
        match (reader s.strict question.document.text).outcome with
        | .ok forest => Answered forest (s.answer reader (.ask question))
        | .error f => s.Failed question f (s.answer reader (.ask question))) ∧
    ∀ call, (s.answer reader call).session.cache.lookups =
      s.cache.lookups + if s.consults call then 1 else 0 := by
  intro s reader
  have hnew : (new detector lineNumbers useCache strict logsMessages).cache.Coherent Markup.read
      none := Cache.coherent_of_eq_none rfl rfl
  obtain ⟨filledStrict, hcoherent⟩ := exists_coherent_afterSteps hnew history
  refine ⟨fun d => ⟨rfl, messagesIn_eq_nil rfl, rfl⟩,
    fun question => isIdle_answer_of_not_accepts, fun question haccepts => ?_,
    lookups_answer reader s⟩
  cases hheld : s.held? question.document with
  | some forest =>
    obtain ⟨_, _, houtcome⟩ := outcome_of_held hcoherent hheld
    exact ⟨⟨notifications_answer_of_held haccepts hheld,
      Markup.exists_listing_of_outcome_read houtcome⟩, answer_of_held haccepts hheld reader⟩
  | none =>
    have htold : (s.answer reader (.ask question)).notifications =
        messagesOf (reader s.strict question.document.text).outcome :=
      notifications_answer_of_not_held haccepts hheld
    cases houtcome : (reader s.strict question.document.text).outcome with
    | error f => exact failed_answer haccepts hheld houtcome
    | ok forest =>
      rw [houtcome] at htold
      refine ⟨htold, ?_⟩
      -- a broken reader gives no forest
      cases broken with
      | none => exact Markup.exists_listing_of_outcome_read houtcome
      | some reason => exact absurd houtcome (by simp [reader, readerOf, Markup.brokenReader])

/-- An end tag that does not match is told of, and once more when the question is asked again. -/
example :
    let s := new .all none (some true) (some true) true
    let call := Call.ask (.listing ⟨"view.axaml", none, 1, "<A>\n</B>"⟩)
    let reply := s.answer Markup.read call
    let again := reply.session.answer Markup.read call
    reply.notifications =
        ["Error parsing AXAML: Closing tag </B> on line 2 does not match <A>"] ∧
      again.notifications = reply.notifications ∧ again.session.cache.misses = 2 := by
  decide +kernel

end Session

end MarkupOutline
