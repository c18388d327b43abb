import MarkupOutline.Proofs.ErrorBoundary

/-!
# What the slot of a session holds

A session trusts the outline in its slot without another look at the key. It may do so because
everything in the slot belongs together (`SlotAgrees`): the forest is the one that the text of the
key is read as, the outline is the one of that forest with the line numbers of the key, and these
are the line numbers that the session shows. Every call keeps it so, with a reader that works or
breaks off (`slotAgrees_answer`), and hence every history does (`slotAgrees_afterSteps_new`).
-/

namespace MarkupOutline

namespace Session

variable {reader : Markup.Reader} {s s' : Session} {v : View} {filledStrict : Option Bool}

/-! ## The key -/

/-- The slot is held for outlines such as the session shows. -/
def Keyed (s : Session) : Prop :=
  ∀ key, s.cache.key = some key → key.lineNumbers = s.lineNumbers

theorem keyed_of_key_eq_none (h : s.cache.key = none) : s.Keyed :=
  fun key hkey => absurd (h.symm.trans hkey) (by simp)

/-- Noting an outline keeps the key. -/
theorem Noted.keyed {forest : Forest Element} (h : Noted forest s s') (hkeyed : s.Keyed) :
    s'.Keyed := by
  rcases h with rfl | ⟨_, rfl⟩
  · exact hkeyed
  · exact hkeyed

/-- A document that is read is remembered under the line numbers of the session. -/
theorem keyed_remember (hkeyed : s.Keyed) (d : Document)
    (outcome : Except Markup.Failure (Forest Element)) : (s.remember d outcome).Keyed := by
  cases huse : s.useCache with
  | false =>
    rw [remember_of_not_useCache huse]
    exact hkeyed
  | true =>
    rw [remember_of_useCache huse]
    intro key hkey
    rw [← Option.some.inj hkey]
    rfl

theorem Viewed.keyed (h : Viewed reader s v s') (hkeyed : s.Keyed) : s'.Keyed := by
  cases h with
  | rejected _ => exact hkeyed
  | found _ _ hnoted => exact hnoted.keyed hkeyed
  | read _ _ _ hnoted => exact hnoted.keyed (keyed_remember hkeyed _ _)
  | failed _ _ _ => exact keyed_remember hkeyed _ _

/-- Line numbers are not switched on or off without emptying the slot. -/
theorem keyed_change (hkeyed : s.Keyed) (change : Change) : (s.change change).Keyed := by
  cases change with
  | lineNumbers on =>
    by_cases hon : on = s.lineNumbers
    · have hsame : s.setLineNumbers on = s := by
        rw [setLineNumbers, if_pos hon, hon]
      show (s.setLineNumbers on).Keyed
      rw [hsame]
      exact hkeyed
    · refine keyed_of_key_eq_none ?_
      show (if on = s.lineNumbers then s.cache else s.cache.invalidate).key = none
      rw [if_neg hon]
      rfl
  | strict on => exact hkeyed
  | useCache on => exact hkeyed
  | detector detector => exact hkeyed
  | invalidate => exact keyed_of_key_eq_none rfl

theorem keyed_answer (hkeyed : s.Keyed) (reader : Markup.Reader) (call : Call) :
    (s.answer reader call).session.Keyed := by
  cases call with
  | ask question =>
    rw [answer_ask]
    exact (viewed_answerView question.sound_view reader s).keyed hkeyed
  | cancelled d => exact hkeyed
  | change change => exact keyed_change hkeyed change

/-! ## The whole slot -/

/-- Everything in the slot belongs together, and to what the session shows. However strictly the
forest has been read, it is the one that lenient reading gives. -/
structure SlotAgrees (s : Session) : Prop where
  lineNumbers : ∀ key, s.cache.key = some key → key.lineNumbers = s.lineNumbers
  forest : ∀ forest, s.cache.forest = some forest →
    ∃ key, s.cache.key = some key ∧ (Markup.read false key.fingerprint).outcome = .ok forest
  outline : ∀ outline, s.cache.outline = some outline →
    ∃ key forest, s.cache.key = some key ∧ s.cache.forest = some forest ∧
      outline = Outline.ofForest key.lineNumbers forest

/-- What strict reading gives is what lenient reading gives, so it does not matter how strictly a
coherent slot was filled. -/
theorem slotAgrees_of_coherent (hkeyed : s.Keyed)
    (hcoherent : s.cache.Coherent Markup.read filledStrict) : s.SlotAgrees where
  lineNumbers := hkeyed
  forest forest hforest := by
    obtain ⟨key, strict, hkey, _, houtcome⟩ := hcoherent.forest forest hforest
    refine ⟨key, hkey, ?_⟩
    cases strict with
    | false => exact houtcome
    | true => exact Markup.outcome_read_false_of_true houtcome
  outline := hcoherent.outline

theorem SlotAgrees.coherent (h : s.SlotAgrees) :
    s.cache.Coherent Markup.read (some false) where
  forest forest hforest := by
    obtain ⟨key, hkey, houtcome⟩ := h.forest forest hforest
    exact ⟨key, false, hkey, rfl, houtcome⟩
  outline := h.outline

/-- The slot of a new session is empty. -/
theorem slotAgrees_new (detector : Detector) (lineNumbers useCache strict : Option Bool)
    (logsMessages : Bool) :
    (new detector lineNumbers useCache strict logsMessages).SlotAgrees where
  lineNumbers := keyed_of_key_eq_none rfl
  forest forest h := absurd h (by simp [new, Cache.empty])
  outline outline h := absurd h (by simp [new, Cache.empty])

/-- Every call keeps together what is in the slot, even one whose document cannot be read. -/
theorem slotAgrees_answer (h : s.SlotAgrees) (broken : Option String) (call : Call) :
    (s.answer (readerOf broken) call).session.SlotAgrees := by
  obtain ⟨_, hcoherent⟩ := exists_coherent_answer h.coherent broken call
  exact slotAgrees_of_coherent (keyed_answer h.lineNumbers _ call) hcoherent

theorem SlotAgrees.afterSteps (h : s.SlotAgrees) (steps : List Step) :
    (s.afterSteps steps).SlotAgrees := by
  induction steps generalizing s with
  | nil => exact h
  | cons step steps ih => exact ih (slotAgrees_answer h step.broken step.call)

/-- Whatever a new session has been called for, and whenever its reader broke off, everything in
its slot belongs together. -/
theorem slotAgrees_afterSteps_new (detector : Detector)
    (lineNumbers useCache strict : Option Bool) (logsMessages : Bool) (history : List Step) :
    ((new detector lineNumbers useCache strict logsMessages).afterSteps history).SlotAgrees :=
  (slotAgrees_new detector lineNumbers useCache strict logsMessages).afterSteps history

end Session

end MarkupOutline
