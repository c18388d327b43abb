import MarkupOutline.Proofs.SlotCoherence
import MarkupOutline.Proofs.Strictness

/-!
# The cache does not show

Call by call, a session answers as a session that never caches would answer (`Watched.seen_answer`).
There is one exception: strictness is no part of the key of the slot, so a strict session may answer
with a forest that was read before it became strict (`Watched.isLenient`).
-/

namespace MarkupOutline

/-! ## What is seen of a reply -/

namespace Log

theorem above_append (threshold : Int) (xs ys : List Record) :
    above threshold (xs ++ ys) = above threshold xs ++ above threshold ys :=
  List.filter_append xs ys

/-- Records for debugging are no errors. -/
theorem above_error_eq_nil {records : List Record} (h : ∀ r ∈ records, r.severity = .debug) :
    above Severity.error.level records = [] := by
  rw [above, List.filter_eq_nil_iff]
  intro r hr
  rw [h r hr]
  decide

end Log

theorem Markup.Notice.severity_record (n : Markup.Notice) : n.record.severity = .debug := by
  cases n with
  | unmatched tag line => rfl
  | mismatched m => rfl
  | finished elements lines roots => rfl

/-- What a caller is told in a reply: the answer, the messages, and the errors in the log, among
which the messages are if they have no other receiver. -/
def Reply.seen {α : Type} (r : Reply α) : α × List String × List Log.Record :=
  (r.value, r.messages, Log.above Log.Severity.error.level r.records)

namespace Session

variable {reader : Markup.Reader} {s : Session} {v : View} {filledStrict : Option Bool}

/-! ## A session without a cache -/

/-- The session that never caches with the same settings. -/
def withoutCaching (s : Session) : Session :=
  { s with useCache := false, cache := .empty }

theorem Noted.withoutCaching_eq {forest : Forest Element} {s' : Session} (h : Noted forest s s') :
    s'.withoutCaching = s.withoutCaching := by
  rcases h with rfl | ⟨_, rfl⟩
  · rfl
  · rfl

/-- A view changes no setting. -/
theorem Viewed.withoutCaching_eq {s' : Session} (h : Viewed reader s v s') :
    s'.withoutCaching = s.withoutCaching := by
  cases h with
  | rejected haccepts => rfl
  | found haccepts hheld hnoted => exact hnoted.withoutCaching_eq
  | read haccepts hheld houtcome hnoted => exact hnoted.withoutCaching_eq
  | failed haccepts hheld houtcome => rfl

/-- A session that does not cache is not changed by a view. -/
theorem Viewed.eq_of_not_useCache {s' : Session} (h : Viewed reader s v s')
    (huse : s.useCache = false) : s' = s := by
  cases h with
  | rejected haccepts => rfl
  | found haccepts hheld hnoted =>
    have huse' := (held?_eq_some_iff.1 hheld).1
    rw [huse] at huse'
    exact absurd huse' Bool.false_ne_true
  | read haccepts hheld houtcome hnoted =>
    rw [remember_of_not_useCache huse] at hnoted
    exact hnoted.eq_of_not_useCache huse
  | failed haccepts hheld houtcome => exact remember_of_not_useCache huse _ _

/-! ## What is seen of a view -/

/-- The records of a reading are no errors. -/
theorem above_error_records_load (reader : Markup.Reader) (s : Session) (d : Document) :
    Log.above Log.Severity.error.level (s.load reader d).2.2 = [] := by
  refine Log.above_error_eq_nil fun r hr => ?_
  cases hheld : s.held? d with
  | some forest =>
    rw [load_of_held hheld] at hr
    simp at hr
  | none =>
    rw [load_of_not_held hheld] at hr
    obtain ⟨n, _, rfl⟩ := List.mem_map.1 hr
    exact n.severity_record

/-- What a view shows of a document that has been read with the given outcome. -/
def View.shown (v : View) (lineNumbers logsMessages : Bool) :
    Except Markup.Failure (Forest Element) → Answer × List String × List Log.Record
  | .ok forest => (v.respond lineNumbers forest, [], [])
  | .error f =>
    if logsMessages then
      (v.blank, [], [unreadable v.operation v.document, messageRecord (failureMessage f)])
    else (v.blank, [failureMessage f], [unreadable v.operation v.document])

theorem seen_answerView_of_load_ok {s' : Session} {records : List Log.Record} (hv : v.Sound)
    {forest : Forest Element} (h : s.detector.accepts v.document = true)
    (hload : s.load reader v.document = (.ok forest, s', records))
    (houtline : s'.useCache = true → ∀ outline, s'.cache.outline = some outline →
      outline = Outline.ofForest s'.lineNumbers forest) :
    (s.answerView reader v).seen = v.shown s'.lineNumbers s'.logsMessages (.ok forest) := by
  have hquiet := above_error_records_load reader s v.document
  rw [hload] at hquiet
  rw [answerView_of_load_ok h hload, Reply.seen, Log.above_append, hquiet,
    Log.above_error_eq_nil (hv.records s' forest), hv.value s' forest houtline]
  rfl

theorem seen_answerView_of_load_error {s' : Session} {records : List Log.Record}
    {f : Markup.Failure} (h : s.detector.accepts v.document = true)
    (hload : s.load reader v.document = (.error f, s', records)) :
    (s.answerView reader v).seen = v.shown s'.lineNumbers s'.logsMessages (.error f) := by
  have hquiet := above_error_records_load reader s v.document
  rw [hload] at hquiet
  rw [answerView_of_load_error h hload, Reply.seen, Log.above_append, hquiet, View.shown]
  cases s'.logsMessages with
  | true => rfl
  | false => rfl

/-- A view shows the forest that the slot holds for the document, or else the outcome of reading
it. -/
theorem seen_answerView (hv : v.Sound) (hcoherent : s.cache.Coherent reader filledStrict)
    (h : s.detector.accepts v.document = true) :
    (s.answerView reader v).seen = v.shown s.lineNumbers s.logsMessages
      (match s.held? v.document with
        | some forest => .ok forest
        | none => (reader s.strict v.document.text).outcome) := by
  cases hheld : s.held? v.document with
  | some forest =>
    show _ = v.shown s.hit.lineNumbers s.hit.logsMessages (.ok forest)
    exact seen_answerView_of_load_ok hv h (load_of_held hheld reader)
      fun _ outline houtline => outline_of_held hcoherent hheld houtline
  | none =>
    have hload := load_of_not_held hheld reader
    cases houtcome : (reader s.strict v.document.text).outcome with
    | ok forest =>
      rw [houtcome] at hload
      show _ = v.shown (s.remember v.document (.ok forest)).lineNumbers
        (s.remember v.document (.ok forest)).logsMessages _
      refine seen_answerView_of_load_ok hv h hload fun huse outline houtline => ?_
      -- the slot holds no outline when a document has been read while the cache is in use
      have huse' : s.useCache = true := huse
      rw [remember_of_useCache huse'] at houtline
      exact absurd houtline (by simp)
    | error f =>
      rw [houtcome] at hload
      show _ = v.shown (s.remember v.document (.error f)).lineNumbers
        (s.remember v.document (.error f)).logsMessages _
      exact seen_answerView_of_load_error h hload

/-- A view of a document that is not taken shows nothing. -/
theorem seen_answerView_of_not_accepts (h : s.detector.accepts v.document = false) :
    (s.answerView reader v).seen = (v.blank, [], []) := by
  rw [answerView_of_not_accepts h]
  rfl

/-! ## Calls without a cache -/

/-- The reply of a session that never caches: the setting of the cache is not to be changed. -/
def answerUncached (reader : Markup.Reader) (s : Session) : Call → Reply Answer
  | .change (.useCache _) => s.changed
  | call => s.answer reader call

/-- The session that never caches after some calls. -/
def afterUncached (reader : Markup.Reader) (s : Session) (calls : List Call) : Session :=
  calls.foldl (fun s call => (s.answerUncached reader call).session) s

/-- There is nothing to forget when line numbers change. -/
theorem setLineNumbers_withoutCaching (s : Session) (on : Bool) :
    s.withoutCaching.setLineNumbers on = (s.setLineNumbers on).withoutCaching := by
  by_cases hon : on = s.lineNumbers
  · simp [withoutCaching, setLineNumbers, hon]
  · simp [withoutCaching, setLineNumbers, hon, Cache.invalidate, Cache.empty]

/-- A call leads a session and the one that never caches to the same settings. -/
theorem session_answerUncached (s : Session) (call : Call) :
    (s.withoutCaching.answerUncached reader call).session =
      (s.answer reader call).session.withoutCaching := by
  cases call with
  | ask question =>
    show (s.withoutCaching.answer reader (.ask question)).session = _
    have hsound := question.sound_view
    rw [answer_ask, answer_ask, (viewed_answerView hsound reader s).withoutCaching_eq,
      (viewed_answerView hsound reader s.withoutCaching).eq_of_not_useCache rfl]
  | cancelled d => rfl
  | change change =>
    cases change with
    | lineNumbers on => exact setLineNumbers_withoutCaching s on
    | strict on => rfl
    | useCache on => rfl
    | detector detector => rfl
    | invalidate => rfl

/-- The settings of a session that never caches are those of a session called in the same way. -/
theorem afterUncached_eq (w : Watched) (calls : List Call) :
    w.session.withoutCaching.afterUncached reader calls =
      (w.after reader calls).session.withoutCaching := by
  induction calls generalizing w with
  | nil => rfl
  | cons call calls ih =>
    have hnext : w.session.withoutCaching.afterUncached reader (call :: calls) =
        (w.session.withoutCaching.answerUncached reader call).session.afterUncached reader calls :=
      rfl
    rw [hnext, session_answerUncached]
    exact ih (w.next reader call)

/-- A change shows the setting of line numbers. -/
theorem seen_answer_change (change : Change) {t : Session}
    (hlines : s.lineNumbers = t.lineNumbers) :
    (s.answer reader (.change change)).seen =
      (t.answerUncached reader (.change change)).seen := by
  have hseen : (s.changed).seen = (t.changed).seen := by
    rw [Reply.seen, Reply.seen, changed, changed, hlines]
  cases change with
  | lineNumbers on => rfl
  | strict on => exact hseen
  | useCache on => exact hseen
  | detector detector => exact hseen
  | invalidate => exact hseen

end Session

namespace Watched

variable {reader : Markup.Reader} {w : Watched}

/-- Whether a call of a strict session is answered out of a slot that has been filled without
strictness. -/
def isLenient (reader : Markup.Reader) (w : Watched) (call : Session.Call) : Bool :=
  w.session.cache.isFoundBetween (w.session.answer reader call).session.cache &&
    w.session.strict && w.filledStrict == some false

/-- The session that never caches that shows what this one shows to a call. -/
def uncachedFor (reader : Markup.Reader) (w : Watched) (call : Session.Call) : Session :=
  if w.isLenient reader call then { w.session.withoutCaching with strict := false }
  else w.session.withoutCaching

/-- A forest that is found in the slot is the outcome of reading the document as the session that
never caches does it. -/
theorem outcome_uncachedFor (hlenient : ∀ text forest, (reader true text).outcome = .ok forest →
      (reader false text).outcome = .ok forest)
    (h : w.Coherent reader) {call : Session.Call} {d : Document} {forest : Forest Element}
    (hfound : w.session.cache.isFoundBetween (w.session.answer reader call).session.cache = true)
    (hheld : w.session.held? d = some forest) :
    (reader (w.uncachedFor reader call).strict d.text).outcome = .ok forest := by
  obtain ⟨filled, hfilled, houtcome⟩ := Session.outcome_of_held h hheld
  have hisLenient : w.isLenient reader call = (w.session.strict && filled == false) := by
    rw [isLenient, hfound, hfilled, Bool.true_and]
    rfl
  have hstrict : (w.uncachedFor reader call).strict = (w.session.strict && filled) := by
    unfold uncachedFor
    rw [hisLenient]
    cases hsession : w.session.strict with
    | false => exact hsession
    | true =>
      cases filled with
      | false => rfl
      | true => exact hsession
  rw [hstrict]
  cases filled with
  | false =>
    rw [Bool.and_false]
    exact houtcome
  | true =>
    -- a forest that has been read strictly is the forest of any reading
    rw [Bool.and_true]
    cases w.session.strict with
    | false => exact hlenient d.text forest houtcome
    | true => exact houtcome

/-- A call that finds nothing in the slot is compared with the same settings. -/
theorem uncachedFor_of_not_found {call : Session.Call}
    (h : w.session.cache.isFoundBetween (w.session.answer reader call).session.cache = false) :
    w.uncachedFor reader call = w.session.withoutCaching := by
  rw [uncachedFor, isLenient, h]
  rfl

theorem uncachedFor_cases (reader : Markup.Reader) (w : Watched) (call : Session.Call) :
    ∃ strict, w.uncachedFor reader call = { w.session.withoutCaching with strict } := by
  unfold uncachedFor
  split
  · exact ⟨false, rfl⟩
  · exact ⟨w.session.strict, rfl⟩

/-- To every question a session with a coherent slot answers as a session that never caches. -/
theorem seen_answer_ask (hlenient : ∀ text forest, (reader true text).outcome = .ok forest →
      (reader false text).outcome = .ok forest)
    (h : w.Coherent reader) (question : Session.Question) :
    (w.session.answer reader (.ask question)).seen =
      ((w.uncachedFor reader (.ask question)).answer reader (.ask question)).seen := by
  obtain ⟨strict, huncached⟩ := uncachedFor_cases reader w (.ask question)
  have hv := question.sound_view
  have hfound := (Session.viewed_answerView hv reader w.session).isFoundBetween_eq
  rw [← Session.answer_ask] at hfound
  rw [Session.answer_ask, Session.answer_ask]
  have hdetector : (w.uncachedFor reader (.ask question)).detector = w.session.detector := by
    rw [huncached]
    rfl
  cases haccepts : w.session.detector.accepts question.view.document with
  | false =>
    rw [Session.seen_answerView_of_not_accepts haccepts,
      Session.seen_answerView_of_not_accepts (by rw [hdetector]; exact haccepts)]
  | true =>
    have hempty : (w.uncachedFor reader (.ask question)).cache.Coherent reader none := by
      rw [huncached]
      exact Cache.coherent_of_eq_none rfl rfl
    have hshown := Session.seen_answerView hv hempty (by rw [hdetector]; exact haccepts)
    rw [Session.seen_answerView hv h haccepts, hshown]
    rw [haccepts, Bool.true_and] at hfound
    cases hheld : w.session.held? question.view.document with
    | some forest =>
      rw [hheld] at hfound
      have houtcome := outcome_uncachedFor hlenient h hfound hheld
      rw [huncached] at houtcome ⊢
      show _ = question.view.shown _ _ (reader strict question.view.document.text).outcome
      rw [houtcome]
      rfl
    | none =>
      rw [hheld] at hfound
      rw [uncachedFor_of_not_found hfound]
      rfl

/-- To every call a session with a coherent slot shows what a session that never caches shows. -/
theorem seen_answer (hlenient : ∀ text forest, (reader true text).outcome = .ok forest →
      (reader false text).outcome = .ok forest)
    (h : w.Coherent reader) (call : Session.Call) :
    (w.session.answer reader call).seen =
      ((w.uncachedFor reader call).answerUncached reader call).seen := by
  cases call with
  | ask question => exact seen_answer_ask hlenient h question
  | cancelled d => rfl
  | change change =>
    obtain ⟨strict, huncached⟩ := uncachedFor_cases reader w (.change change)
    refine Session.seen_answer_change change ?_
    rw [huncached]
    rfl

end Watched

namespace Session

/-- Whatever a session has been called for, to the next call it shows what a session shows that has
been made with the same options and called in the same way, but never caches. There is one
exception: a strict session that finds in its slot a forest that has been put there when it was not
strict shows what the other shows if it is not strict in this call. -/
theorem seen_answer_eq_uncached (detector : Detector) (lineNumbers useCache strict : Option Bool)
    (logsMessages : Bool) (history : List Call) (call : Call) :
    let caching := Watched.after Markup.read
      ⟨.new detector lineNumbers useCache strict logsMessages, none⟩ history
    let never := (new detector lineNumbers (some false) strict logsMessages).afterUncached
      Markup.read history
    (caching.session.answer Markup.read call).seen =
      ((if caching.isLenient Markup.read call then { never with strict := false }
        else never).answerUncached Markup.read call).seen := by
  intro caching never
  have hnever : never = caching.session.withoutCaching :=
    afterUncached_eq ⟨.new detector lineNumbers useCache strict logsMessages, none⟩ history
  have hcoherent : caching.Coherent Markup.read :=
    Watched.coherent_after (Cache.coherent_of_eq_none rfl rfl) history
  rw [hnever]
  exact Watched.seen_answer (fun _ _ => Markup.outcome_read_false_of_true) hcoherent call

/-- The exception occurs: a session that has turned strict finds what it has read before, where one
that never caches tells of the end tag that does not match. -/
example :
    let d : Document := ⟨"view.axaml", none, 1, "<A></B>"⟩
    let lenient := new (.host fun _ => true) none (some true) (some false) false
    let call := Call.ask (.forest d)
    let caching := Watched.after Markup.read ⟨lenient, none⟩ [call, .change (.strict true)]
    caching.isLenient Markup.read call = true ∧
      (caching.session.answer Markup.read call).messages = [] ∧
      (caching.session.withoutCaching.answer Markup.read call).messages.length = 1 := by
  decide +kernel

end Session

end MarkupOutline
