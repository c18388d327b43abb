import MarkupOutline.Proofs.Pruned

/-!
# Strict readings

A strict reading does what any reading does, token by token, until it comes to an end tag that does
not match. There it stops, and what it has noted by then is what any reading has noted by then.
-/

namespace MarkupOutline.Markup

namespace Assembly

/-! ## What a step notes -/

theorem notices_start (a : Assembly) (tag : StartTag) : (a.start tag).notices = a.notices := by
  have hadd : (a.add tag.sketch).notices = a.notices := by
    unfold add
    split <;> rfl
  unfold start
  dsimp only
  split
  · split
    · exact hadd
    · rfl
  · show (if a.shows tag.name then a.add tag.sketch else a).notices = a.notices
    split
    · exact hadd
    · rfl

/-- A mismatch is all that its end tag notes. -/
theorem notices_step_of_mismatch {a : Assembly} {token : Token} {m : Mismatch}
    (h : a.mismatch? token = some m) : (a.step token).notices = .mismatched m :: a.notices := by
  obtain ⟨openTags, parts, roots, definitions, notices⟩ := a
  cases token with
  | endTag name p =>
    cases openTags with
    | nil => simp [mismatch?] at h
    | cons o rest =>
      rw [step, h]
      rfl
  | startTag tag => simp [mismatch?] at h
  | aside ended => simp [mismatch?] at h
  | stray => simp [mismatch?] at h

/-- Without a mismatch no mismatch is noted. -/
theorem notices_step_of_no_mismatch {a : Assembly} {token : Token}
    (h : a.mismatch? token = none) :
    ∃ new, (a.step token).notices = new ++ a.notices ∧ ∀ m, .mismatched m ∉ new := by
  unfold step
  rw [h]
  cases token with
  | startTag tag => exact ⟨[], notices_start a tag, by simp⟩
  | aside ended => exact ⟨[], rfl, by simp⟩
  | stray => exact ⟨[], rfl, by simp⟩
  | endTag name p =>
    dsimp only
    unfold finish
    split
    · exact ⟨[.unmatched name p.line], rfl, by simp⟩
    · exact ⟨[], rfl, by simp⟩

end Assembly

/-! ## Two runs side by side -/

/-- What has been noted stays noted. -/
theorem exists_notices_assemble (lines : Nat) (stop : Position) (a : Assembly)
    (tokens : List Token) :
    ∃ later, (assemble false lines stop a tokens).notices = a.notices.reverse ++ later := by
  induction tokens generalizing a with
  | nil =>
    rw [assemble]
    split
    · exact ⟨_, List.reverse_cons⟩
    · exact ⟨[], (List.append_nil _).symm⟩
  | cons token tokens ih =>
    rw [assemble_false_cons]
    obtain ⟨later, hlater⟩ := ih (a.step token)
    cases hm : a.mismatch? token with
    | some m =>
      rw [Assembly.notices_step_of_mismatch hm, List.reverse_cons, List.append_assoc] at hlater
      exact ⟨_, hlater⟩
    | none =>
      obtain ⟨new, hnew, _⟩ := Assembly.notices_step_of_no_mismatch hm
      rw [hnew, List.reverse_append, List.append_assoc] at hlater
      exact ⟨_, hlater⟩

theorem mismatched_not_mem_append {new later : List Notice} (hnew : ∀ m, .mismatched m ∉ new)
    (hlater : ∀ m, .mismatched m ∉ later) : ∀ m, .mismatched m ∉ new.reverse ++ later := by
  intro m hmem
  rcases List.mem_append.1 hmem with hmem | hmem
  · exact hnew m (List.mem_reverse.1 hmem)
  · exact hlater m hmem

/-- A strict run either goes on like any run to the end, and no mismatch is noted, or it stops with
the first mismatch that any run notes. -/
theorem assemble_true (lines : Nat) (stop : Position) (a : Assembly) (tokens : List Token) :
    (assemble true lines stop a tokens = assemble false lines stop a tokens ∧
      ∃ later, (assemble false lines stop a tokens).notices = a.notices.reverse ++ later ∧
        ∀ m, .mismatched m ∉ later) ∨
    ∃ before m after,
      (assemble false lines stop a tokens).notices =
        a.notices.reverse ++ (before ++ .mismatched m :: after) ∧
      (∀ m', .mismatched m' ∉ before) ∧
      assemble true lines stop a tokens =
        ⟨.error (.mismatch m), a.notices.reverse ++ before⟩ := by
  induction tokens generalizing a with
  | nil =>
    refine .inl ⟨rfl, ?_⟩
    rw [assemble]
    split
    · exact ⟨_, List.reverse_cons, by simp⟩
    · exact ⟨[], (List.append_nil _).symm, by simp⟩
  | cons token tokens ih =>
    rw [assemble_true_cons, assemble_false_cons]
    cases hm : a.mismatch? token with
    | some m =>
      -- here the runs part: one stops, the other takes note of the mismatch and goes on
      dsimp only
      obtain ⟨later, hlater⟩ := exists_notices_assemble lines stop (a.step token) tokens
      rw [Assembly.notices_step_of_mismatch hm, List.reverse_cons, List.append_assoc] at hlater
      exact .inr ⟨[], m, later, hlater, by simp, by rw [List.append_nil]⟩
    | none =>
      dsimp only
      obtain ⟨new, hnew, hnone⟩ := Assembly.notices_step_of_no_mismatch hm
      have hreverse : (a.step token).notices.reverse = a.notices.reverse ++ new.reverse := by
        rw [hnew, List.reverse_append]
      rcases ih (a.step token) with ⟨hsame, later, hlater, hlast⟩ |
        ⟨before, m, after, hall, hbefore, hstrict⟩
      · rw [hreverse, List.append_assoc] at hlater
        exact .inl ⟨hsame, new.reverse ++ later, hlater, mismatched_not_mem_append hnone hlast⟩
      · rw [hreverse, List.append_assoc] at hall hstrict
        refine .inr ⟨new.reverse ++ before, m, after, ?_,
          mismatched_not_mem_append hnone hbefore, hstrict⟩
        rw [hall, List.append_assoc]

/-- The two cases of a strict reading. -/
theorem read_true_cases (text : String) :
    (read true text = read false text ∧ ∀ m, .mismatched m ∉ (read false text).notices) ∨
    ∃ before m after,
      (read false text).notices = before ++ .mismatched m :: after ∧
      (∀ m', .mismatched m' ∉ before) ∧
      read true text = ⟨.error (.mismatch m), before⟩ := by
  rw [read_eq, read_eq]
  rcases assemble_true (Text.lineCount text.toList) (endOf text) .empty (tokensOf text) with
    ⟨hsame, later, hlater, hnone⟩ | hfirst
  · refine .inl ⟨hsame, fun m hmem => hnone m ?_⟩
    rwa [hlater] at hmem
  · exact .inr hfirst

/-- A forest that is read strictly is the forest of any reading. -/
theorem outcome_read_false_of_true {text : String} {forest : Forest Element}
    (h : (read true text).outcome = .ok forest) : (read false text).outcome = .ok forest := by
  rcases read_true_cases text with ⟨hsame, _⟩ | ⟨before, m, _, _, _, hstrict⟩
  · rwa [← hsame]
  · rw [hstrict] at h
    exact absurd h (by simp)

/-- A strict reading succeeds if and only if a reading that is not strict notes no mismatch, and is
then the same reading, notices included. Otherwise it fails with the first mismatch that the other
notes, and has noted what the other has noted in front of it. -/
theorem read_true_iff_no_mismatch (text : String) :
    ((∃ forest, (read true text).outcome = .ok forest) ↔
      ∀ m, Notice.mismatched m ∉ (read false text).notices) ∧
    match (read true text).outcome with
    | .ok _ => read true text = read false text
    | .error failure => ∃ before m after,
        (read false text).notices = before ++ .mismatched m :: after ∧
        (∀ m', Notice.mismatched m' ∉ before) ∧
        failure = .mismatch m ∧ (read true text).notices = before := by
  obtain ⟨forest, hpruned⟩ := exists_map_sketchOf_eq_prune text
  have hok := outcome_read_false hpruned
  rcases read_true_cases text with ⟨hsame, hnone⟩ | ⟨before, m, after, hall, hbefore, hstrict⟩
  · refine ⟨⟨fun _ => hnone, fun _ => ⟨forest, by rw [hsame, hok]⟩⟩, ?_⟩
    rw [hsame, hok]
  · refine ⟨⟨fun ⟨_, hsucceeds⟩ => ?_, fun hnone => ?_⟩, ?_⟩
    · rw [hstrict] at hsucceeds
      exact absurd hsucceeds (by simp)
    · exact absurd (by rw [hall]; simp) (hnone m)
    · rw [hstrict]
      exact ⟨before, m, after, hall, hbefore, rfl, rfl⟩

end MarkupOutline.Markup
