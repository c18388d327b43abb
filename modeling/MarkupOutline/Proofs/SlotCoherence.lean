import MarkupOutline.Proofs.SessionCalls

/-!
# The slot of a session

The slot of a session is coherent. Its forest has been read of the document that it is held for,
under the strictness of the session at that time, and its outline is that of its forest. `Watched`
keeps account of that strictness; every call keeps the slot coherent (`Watched.coherent_next`), so
it is after all calls (`Watched.coherent_after`).
-/

namespace MarkupOutline

/-! ## Coherence -/

namespace Cache

/-- Whether a look-up between two states of a cache has found a forest. -/
def isFoundBetween (before after : Cache String) : Bool :=
  before.hits < after.hits

/-- Whether between two states of a cache a look-up has missed and a forest has been put into the
slot. -/
def isFilledBetween (before after : Cache String) : Bool :=
  before.misses < after.misses && after.forest.isSome

/-- Nothing has been put into the slot if no look-up has missed. -/
theorem isFilledBetween_eq_false {before after : Cache String}
    (h : after.misses = before.misses) : before.isFilledBetween after = false := by
  rw [isFilledBetween, h, decide_eq_false (Nat.lt_irrefl _)]
  rfl

/-- The forest in the slot has been read of the document that the slot is held for, with the given
strictness, and the outline in it is that of the forest. -/
structure Coherent (reader : Markup.Reader) (strict : Option Bool) (c : Cache String) : Prop where
  forest : ∀ forest, c.forest = some forest →
    ∃ key filledStrict, c.key = some key ∧ strict = some filledStrict ∧
      (reader filledStrict key.fingerprint).outcome = .ok forest
  outline : ∀ outline, c.outline = some outline →
    ∃ key forest, c.key = some key ∧ c.forest = some forest ∧
      outline = Outline.ofForest key.lineNumbers forest

variable {reader : Markup.Reader} {strict : Option Bool} {c : Cache String}

/-- An empty slot is coherent. -/
theorem coherent_of_eq_none (hforest : c.forest = none) (houtline : c.outline = none) :
    c.Coherent reader strict where
  forest forest h := absurd (hforest.symm.trans h) (by simp)
  outline outline h := absurd (houtline.symm.trans h) (by simp)

/-- The outline of the forest in the slot may be noted there. -/
theorem Coherent.storeOutline {key : CacheKey String} {forest : Forest Element}
    (h : c.Coherent reader strict) (hkey : c.key = some key) (hforest : c.forest = some forest) :
    (c.storeOutline (Outline.ofForest key.lineNumbers forest)).Coherent reader strict where
  forest := h.forest
  outline _ houtline := ⟨key, forest, hkey, hforest, (Option.some.inj houtline).symm⟩

end Cache

namespace Session

variable {reader : Markup.Reader} {s : Session} {v : View} {filledStrict : Option Bool}

/-- The outline that a coherent slot holds for a document is that of its forest. -/
theorem outline_of_held {d : Document} {forest : Forest Element}
    (h : s.cache.Coherent reader filledStrict) (hheld : s.held? d = some forest)
    {outline : Forest Outline.Symbol} (houtline : s.cache.outline = some outline) :
    outline = Outline.ofForest s.lineNumbers forest := by
  obtain ⟨_, hkey, hforest⟩ := held?_eq_some_iff.1 hheld
  obtain ⟨key, forest', hkey', hforest', houtline'⟩ := h.outline outline houtline
  rw [hkey, Option.some.injEq] at hkey'
  rw [hforest, Option.some.injEq] at hforest'
  rw [houtline', ← hkey', ← hforest']
  rfl

/-- A forest that a coherent slot holds for a document has been read of it. -/
theorem outcome_of_held {d : Document} {forest : Forest Element}
    (h : s.cache.Coherent reader filledStrict) (hheld : s.held? d = some forest) :
    ∃ strict, filledStrict = some strict ∧ (reader strict d.text).outcome = .ok forest := by
  obtain ⟨_, hkey, hforest⟩ := held?_eq_some_iff.1 hheld
  obtain ⟨key, strict, hkey', hstrict, houtcome⟩ := h.forest forest hforest
  rw [hkey, Option.some.injEq] at hkey'
  rw [← hkey'] at houtcome
  exact ⟨strict, hstrict, houtcome⟩

/-! ## Calls and the slot -/

/-- Noting an outline keeps the counts and the forest. -/
theorem Noted.isFilledBetween_eq {forest : Forest Element} {s' : Session} (h : Noted forest s s')
    (before : Cache String) :
    before.isFilledBetween s'.cache = before.isFilledBetween s.cache := by
  rcases h with rfl | ⟨_, rfl⟩
  · rfl
  · rfl

theorem lineNumbers_keyOf (s : Session) (d : Document) :
    (s.keyOf d).lineNumbers = s.lineNumbers := rfl

theorem Noted.isFoundBetween_eq {forest : Forest Element} {s' : Session} (h : Noted forest s s')
    (before : Cache String) :
    before.isFoundBetween s'.cache = before.isFoundBetween s.cache := by
  rcases h with rfl | ⟨_, rfl⟩
  · rfl
  · rfl

theorem Noted.eq_of_not_useCache {forest : Forest Element} {s' : Session}
    (h : Noted forest s s') (huse : s.useCache = false) : s' = s := by
  rcases h with hsame | ⟨huse', _⟩
  · exact hsame
  · rw [huse] at huse'
    exact absurd huse' Bool.false_ne_true

theorem Noted.coherent {forest : Forest Element} {s' : Session} (h : Noted forest s s')
    (hcoherent : s.cache.Coherent reader filledStrict) (d : Document)
    (hheld : s.useCache = true → s.held? d = some forest) :
    s'.cache.Coherent reader filledStrict := by
  rcases h with rfl | ⟨huse, rfl⟩
  · exact hcoherent
  · obtain ⟨_, hkey, hforest⟩ := held?_eq_some_iff.1 (hheld huse)
    have hstored := hcoherent.storeOutline hkey hforest
    rwa [lineNumbers_keyOf] at hstored

/-- Nothing is found in the slot when a document is read. -/
theorem isFoundBetween_remember (d : Document)
    (outcome : Except Markup.Failure (Forest Element)) :
    s.cache.isFoundBetween (s.remember d outcome).cache = false := by
  have hirrefl : ¬ s.cache.hits < s.cache.hits := Nat.lt_irrefl _
  cases huse : s.useCache with
  | false =>
    rw [remember_of_not_useCache huse]
    exact decide_eq_false hirrefl
  | true =>
    rw [remember_of_useCache huse]
    exact decide_eq_false hirrefl

/-- A view finds a forest in the slot exactly if the document is taken and the slot holds its
forest. -/
theorem Viewed.isFoundBetween_eq {s' : Session} (h : Viewed reader s v s') :
    s.cache.isFoundBetween s'.cache =
      (s.detector.accepts v.document && (s.held? v.document).isSome) := by
  cases h with
  | rejected haccepts =>
    rw [haccepts]
    exact decide_eq_false (Nat.lt_irrefl _)
  | found haccepts hheld hnoted =>
    rw [hnoted.isFoundBetween_eq, haccepts, hheld]
    exact decide_eq_true (Nat.lt_succ_self _)
  | read haccepts hheld houtcome hnoted =>
    rw [hnoted.isFoundBetween_eq, isFoundBetween_remember, haccepts, hheld]
    rfl
  | failed haccepts hheld houtcome =>
    rw [isFoundBetween_remember, haccepts, hheld]
    rfl

/-- A view keeps the slot coherent; if it fills the slot, it does so with the strictness of the
session. -/
theorem Viewed.coherent {s' : Session} (h : Viewed reader s v s')
    (hcoherent : s.cache.Coherent reader filledStrict) :
    s'.cache.Coherent reader
      (if s.cache.isFilledBetween s'.cache then some s.strict else filledStrict) := by
  cases h with
  | rejected haccepts =>
    rw [Cache.isFilledBetween_eq_false rfl]
    exact hcoherent
  | found haccepts hheld hnoted =>
    have hcount : s.hit.cache.misses = s.cache.misses := rfl
    rw [hnoted.isFilledBetween_eq, Cache.isFilledBetween_eq_false hcount]
    exact hnoted.coherent ⟨hcoherent.forest, hcoherent.outline⟩ v.document fun _ => hheld
  | @read forest _ haccepts hheld houtcome hnoted =>
    rw [hnoted.isFilledBetween_eq]
    cases huse : s.useCache with
    | false =>
      rw [remember_of_not_useCache huse] at hnoted ⊢
      rw [Cache.isFilledBetween_eq_false rfl, hnoted.eq_of_not_useCache huse]
      exact hcoherent
    | true =>
      have hremember := remember_of_useCache huse v.document (.ok forest)
      have hfilled : s.cache.isFilledBetween (s.remember v.document (.ok forest)).cache = true := by
        rw [hremember]
        simp [Cache.isFilledBetween, Except.toOption]
      rw [hfilled]
      refine hnoted.coherent ?_ v.document fun _ => held?_eq_some_iff.2 ?_
      · rw [hremember]
        refine ⟨fun known hknown => ⟨s.keyOf v.document, s.strict, rfl, rfl, ?_⟩, fun _ h => ?_⟩
        · rw [← Option.some.inj hknown]
          exact houtcome
        · exact absurd h (by simp)
      · rw [hremember]
        exact ⟨huse, rfl, rfl⟩
  | @failed f haccepts hheld houtcome =>
    cases huse : s.useCache with
    | false =>
      rw [remember_of_not_useCache huse, Cache.isFilledBetween_eq_false rfl]
      exact hcoherent
    | true =>
      rw [remember_of_useCache huse]
      exact Cache.coherent_of_eq_none rfl rfl

/-- A change leaves the cache as it is, or empties the slot. -/
theorem cache_change (s : Session) (change : Change) :
    (s.change change).cache = s.cache ∨ (s.change change).cache = s.cache.invalidate := by
  cases change with
  | lineNumbers on =>
    by_cases hon : on = s.lineNumbers
    · exact .inl (if_pos hon)
    · exact .inr (if_neg hon)
  | strict on => exact .inl rfl
  | useCache on => exact .inl rfl
  | detector detector => exact .inl rfl
  | invalidate => exact .inr rfl

end Session

/-! ## Watching a session -/

/-- A session with the strictness under which its slot was last filled. -/
structure Watched where
  session : Session
  filledStrict : Option Bool

namespace Watched

/-- The session after a call. -/
def next (reader : Markup.Reader) (w : Watched) (call : Session.Call) : Watched :=
  let session := (w.session.answer reader call).session
  { session := session
    filledStrict := if w.session.cache.isFilledBetween session.cache then some w.session.strict
      else w.filledStrict }

/-- The session after some calls. -/
def after (reader : Markup.Reader) (w : Watched) (calls : List Session.Call) : Watched :=
  calls.foldl (next reader) w

/-- The slot holds what it should, as far as is known. -/
def Coherent (reader : Markup.Reader) (w : Watched) : Prop :=
  w.session.cache.Coherent reader w.filledStrict

variable {reader : Markup.Reader} {w : Watched}

/-- Every call keeps the slot coherent. -/
theorem coherent_next (h : w.Coherent reader) (call : Session.Call) :
    (w.next reader call).Coherent reader := by
  unfold Coherent next
  dsimp only
  cases call with
  | ask question =>
    rw [Session.answer_ask]
    exact (Session.viewed_answerView question.sound_view reader w.session).coherent h
  | cancelled d =>
    have hcache : (w.session.answer reader (.cancelled d)).session.cache = w.session.cache := rfl
    rw [hcache, Cache.isFilledBetween_eq_false rfl]
    exact h
  | change change =>
    have hcache : (w.session.answer reader (.change change)).session.cache =
      (w.session.change change).cache := rfl
    rw [hcache]
    rcases w.session.cache_change change with hsame | hempty
    · rw [hsame, Cache.isFilledBetween_eq_false rfl]
      exact h
    · rw [hempty]
      exact Cache.coherent_of_eq_none rfl rfl

/-- Whatever a session is called for, its slot stays coherent. -/
theorem coherent_after (h : w.Coherent reader) (calls : List Session.Call) :
    (w.after reader calls).Coherent reader := by
  induction calls generalizing w with
  | nil => exact h
  | cons call calls ih => exact ih (coherent_next h call)

end Watched

end MarkupOutline
