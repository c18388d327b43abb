import MarkupOutline.Proofs.EditLocality
import MarkupOutline.Proofs.FurtherDown
import MarkupOutline.Proofs.Strictness

/-!
# Texts one behind the other

A text that leaves nothing open is read as if nothing followed it, and what follows it behind a line
end as if nothing came before (`read_concatenated`). The run goes on from a nest that stands behind
finished trees, and such a nest grows as the same nest does by itself (`fullNest_behind`).
-/

namespace MarkupOutline

open Forest

universe u v

variable {α : Type u} {β : Type v}

/-! ## Nests behind finished trees -/

namespace Nest

variable (base : Forest β) (f : α → β)

/-- A nest as it stands behind finished trees, with `f` applied to all its values. -/
def behindOf (inside : Forest α) : List (Forest α × α) → Nest β
  | [] => ⟨base ++ Forest.map f inside, []⟩
  | (front, a) :: rest => ((behindOf front rest).enter (f a)).add (Forest.map f inside)

/-- A nest as it stands behind finished trees, with `f` applied to all its values. -/
def behind (n : Nest α) : Nest β :=
  behindOf base f n.inside n.around

theorem behind_empty : (empty : Nest α).behind base f = ⟨base, []⟩ := by
  show (⟨base ++ Forest.map f [], []⟩ : Nest β) = ⟨base, []⟩
  rw [map_nil, List.append_nil]

theorem behind_add (n : Nest α) (ts : Forest α) :
    (n.add ts).behind base f = (n.behind base f).add (Forest.map f ts) := by
  obtain ⟨inside, _ | ⟨⟨front, a⟩, rest⟩⟩ := n
  · show (⟨base ++ Forest.map f (inside ++ ts), []⟩ : Nest β) =
      ⟨(base ++ Forest.map f inside) ++ Forest.map f ts, []⟩
    rw [map_append, List.append_assoc]
  · show ((behindOf base f front rest).enter (f a)).add (Forest.map f (inside ++ ts)) =
      (((behindOf base f front rest).enter (f a)).add (Forest.map f inside)).add (Forest.map f ts)
    rw [map_append, add_add]

theorem behind_enter (n : Nest α) (a : α) :
    (n.enter a).behind base f = (n.behind base f).enter (f a) := by
  show ((behindOf base f n.inside n.around).enter (f a)).add (Forest.map f []) = _
  rw [map_nil, add_nil]
  rfl

variable {f} {g : α → α} {g' : β → β}

/-- The innermost value is left behind finished trees as it is without them. -/
theorem behind_leave (h : ∀ a, f (g a) = g' (f a)) (n : Nest α) :
    (n.leave g).behind base f = (n.behind base f).leave g' := by
  obtain ⟨inside, _ | ⟨⟨front, a⟩, rest⟩⟩ := n
  · rfl
  · have hadd := behind_add base f ⟨front, rest⟩ [⟨g a, inside⟩]
    rw [map_cons, map_nil, h] at hadd
    exact hadd

/-- Closing all that is open leaves the finished trees where they are. -/
theorem whole_behind (h : ∀ a, f (g a) = g' (f a)) (n : Nest α) :
    (n.behind base f).whole g' = base ++ Forest.map f (n.whole g) := by
  obtain ⟨inside, around⟩ := n
  induction around generalizing inside with
  | nil => rfl
  | cons o rest ih =>
    obtain ⟨front, a⟩ := o
    have hleave := behind_leave base h ⟨inside, (front, a) :: rest⟩
    have hwhole := ih (front ++ [⟨g a, inside⟩])
    have hleft : (⟨front ++ [⟨g a, inside⟩], rest⟩ : Nest α).behind base f =
        (behind base f ⟨inside, (front, a) :: rest⟩).leave g' := hleave
    rw [hleft] at hwhole
    exact hwhole

/-- A nest in which nothing is open is the forest that it stands for. -/
theorem eq_whole_of_around_eq_nil {n : Nest α} (h : n.around = []) (g : α → α) :
    n = ⟨n.whole g, []⟩ := by
  obtain ⟨inside, around⟩ := n
  obtain rfl : around = [] := h
  rfl

end Nest

/-- The element `lines` lines further down. -/
def Element.down (lines : Nat) (e : Element) : Element :=
  { e with span := e.span.down lines }

namespace Markup

open Nest

variable (lines : Nat)

/-! ## Sketches further down -/

/-- The sketch `lines` lines further down. -/
def Sketch.down (s : Sketch) : Sketch :=
  { s with start := s.start.down lines, stop := s.stop.down lines }

/-- The mismatch `lines` lines further down. -/
def Mismatch.down (m : Mismatch) : Mismatch :=
  { m with line := m.line + lines }

/-- The failure `lines` lines further down. -/
def Failure.down : Failure → Failure
  | mismatch m => mismatch (m.down lines)
  | interrupted reason => interrupted reason

/-- A change that leaves the tags alone can be made before or after pruning. -/
theorem prune_map {f : Sketch → Sketch} (hf : ∀ s, (f s).tag = s.tag) (ts : Forest Sketch) :
    prune (map f ts) = map f (prune ts) := by
  induction ts using Forest.induct with
  | nil => simp
  | cons t ts below beside =>
    rw [map_cons, prune_cons, prune_cons, beside, map_append, hf]
    refine congrArg (· ++ map f (prune ts)) ?_
    split
    · rw [map_nil]
    · split
      · exact below
      · rw [map_cons, map_nil, below]

/-! ## Runs behind finished trees -/

variable (base : Forest Sketch)

theorem fullStep_behind (n : Nest Sketch) (token : Token) :
    fullStep (n.behind base (Sketch.down lines)) (token.down lines) =
      (fullStep n token).behind base (Sketch.down lines) := by
  cases token with
  | startTag tag =>
    have hending : (tag.down lines).ending = tag.ending := rfl
    rw [Token.down, fullStep, fullStep, hending]
    split
    · have hadd := behind_add base (Sketch.down lines) n [⟨tag.sketch, []⟩]
      rw [map_cons, map_nil] at hadd
      exact hadd.symm
    · rw [behind_enter]
      rfl
  | endTag name p =>
    have hend : ∀ s : Sketch, (s.endAt p).down lines = (s.down lines).endAt (p.down lines) :=
      fun _ => rfl
    exact (behind_leave base hend n).symm
  | aside ended => rfl
  | stray => rfl

/-- Behind finished trees a nest grows as it does by itself. -/
theorem fullNest_behind (n : Nest Sketch) (tokens : List Token) :
    fullNest (n.behind base (Sketch.down lines)) (tokens.map (Token.down lines)) =
      (fullNest n tokens).behind base (Sketch.down lines) := by
  induction tokens generalizing n with
  | nil => rfl
  | cons token tokens ih =>
    have hstep := ih (fullStep n token)
    rw [← fullStep_behind] at hstep
    exact hstep

/-- Finished trees change nothing about the tag that an end tag would close. -/
theorem mismatch?_behind (n : Nest Sketch) (notices notices' : List Notice) (token : Token) :
    (Assembly.ofNest (n.behind base (Sketch.down lines)) notices).mismatch? (token.down lines) =
      ((Assembly.ofNest n notices').mismatch? token).map (Mismatch.down lines) := by
  cases token with
  | startTag tag => rfl
  | aside ended => rfl
  | stray => rfl
  | endTag name p =>
    obtain ⟨inside, _ | ⟨⟨front, s⟩, rest⟩⟩ := n
    · rfl
    · show (if s.tag = name then none else some (⟨s.tag, name, p.line + lines⟩ : Mismatch)) =
        (if s.tag = name then none else some ⟨s.tag, name, p.line⟩).map (Mismatch.down lines)
      split
      · rfl
      · rfl

theorem firstMismatch?_behind (n : Nest Sketch) (notices notices' : List Notice)
    (tokens : List Token) :
    firstMismatch? (.ofNest (n.behind base (Sketch.down lines)) notices)
        (tokens.map (Token.down lines)) =
      (firstMismatch? (.ofNest n notices') tokens).map (Mismatch.down lines) := by
  induction tokens generalizing n notices notices' with
  | nil => rfl
  | cons token tokens ih =>
    rw [List.map_cons, firstMismatch?, firstMismatch?, mismatch?_behind lines base n notices
      notices', step_ofNest, step_ofNest, fullStep_behind]
    cases (Assembly.ofNest n notices').mismatch? token with
    | some m => rfl
    | none => exact ih _ _ _

/-! ## The end of the text in front -/

/-- What has been assembled of a text, without strictness, when all of it has been read. -/
def assemblyOf (text : String) : Assembly :=
  (tokensOf text).foldl Assembly.step .empty

theorem foldl_step_ofNest (n : Nest Sketch) (notices : List Notice) (tokens : List Token) :
    ∃ notices', tokens.foldl Assembly.step (.ofNest n notices) =
      .ofNest (fullNest n tokens) notices' := by
  induction tokens generalizing n notices with
  | nil => exact ⟨notices, rfl⟩
  | cons token tokens ih =>
    rw [List.foldl_cons, step_ofNest]
    exact ih (fullStep n token) _

theorem exists_assemblyOf_eq (text : String) :
    ∃ notices, assemblyOf text = .ofNest (fullNest .empty (tokensOf text)) notices := by
  have hrun := foldl_step_ofNest .empty [] (tokensOf text)
  rw [ofNest_empty] at hrun
  exact hrun

theorem around_eq_nil_of_openTags {n : Nest Sketch} {notices : List Notice}
    (h : (Assembly.ofNest n notices).openTags = []) : n.around = [] := by
  obtain ⟨inside, _ | ⟨⟨front, s⟩, rest⟩⟩ := n
  · rfl
  · exact absurd h (List.cons_ne_nil _ _)

/-- If nothing is left open, and no aside goes on to the end, all tokens have ended. -/
theorem isEnded_of_around_eq_nil {c : Cursor} {n : Nest Sketch}
    (hclosed : (fullNest n (Token.readAll c)).around = [])
    (hasides : .aside false ∉ Token.readAll c) : ∀ token ∈ Token.readAll c, token.isEnded := by
  induction c using Token.readAll_induction generalizing n with
  | nil c hmark =>
    rw [Token.readAll_eq_nil hmark]
    simp
  | cons c hmark ih =>
    rw [Token.readAll_eq_cons hmark] at hclosed hasides ⊢
    rw [List.mem_cons, not_or] at hasides
    rw [List.forall_mem_cons]
    refine ⟨?_, ih hclosed hasides.2⟩
    rcases (Token.reads_read c.seekMarkup).isEnded_cases with
      hended | haside | ⟨tag, htag, hmissing, hrest⟩
    · exact hended
    · exact absurd haside.symm hasides.1
    · -- such a tag comes last, and it stays open
      have hnone : Token.readAll (Token.read c.seekMarkup).2 = [] :=
        Token.readAll_of_rest_eq_nil hrest
      have hopen : (fullStep n (.startTag tag)).around = [] := by
        rw [hnone, htag] at hclosed
        exact hclosed
      rw [fullStep, if_neg (by simp [hmissing])] at hopen
      exact absurd hopen (List.cons_ne_nil _ _)

/-! ## The text behind -/

/-- A strict reading fails at the first mismatch, and else it is like any reading. -/
theorem outcome_read_true (text : String) :
    (read true text).outcome =
      match firstMismatch? .empty (tokensOf text) with
      | some m => .error (.mismatch m)
      | none => (read false text).outcome := by
  rw [← mismatch?_read_true]
  rcases read_true_cases text with ⟨hsame, _⟩ | ⟨before, m, _, _, _, hstrict⟩
  · obtain ⟨forest, hforest⟩ := exists_map_sketchOf_eq_prune text
    rw [hsame, Reading.mismatch?, outcome_read_false hforest]
  · rw [hstrict]
    rfl

/-- Behind a line end the next line begins. -/
theorem after_atEnd_ofText (before : String) :
    (Cursor.ofText before.toList).atEnd.position.after '\n' =
      Position.origin.down (Text.lineCount before.toList) := by
  have hline := line_endOf before
  rw [endOf] at hline
  have hnext : (Cursor.ofText before.toList).atEnd.position.line + 1 =
      0 + Text.lineCount before.toList := by omega
  exact congrArg (fun line => Position.mk line 0) hnext

/-- Reading starts again behind a text of which all tokens have ended. -/
theorem tokensOf_append_line {before : String}
    (h : ∀ token ∈ tokensOf before, token.isEnded) (after : String) :
    tokensOf (before ++ "\n" ++ after) =
      tokensOf before ++ (tokensOf after).map (Token.down (Text.lineCount before.toList)) := by
  rw [tokensOf, ofText_append_line, Token.readAll_continued_of_isEnded h, after_atEnd_ofText,
    tokensOf, tokensOf, ← Token.readAll_down]
  rfl

theorem endOf_append_line (before after : String) :
    endOf (before ++ "\n" ++ after) = (endOf after).down (Text.lineCount before.toList) := by
  rw [endOf, ofText_append_line]
  show (((Cursor.ofText before.toList).position.afterAll
    ((Cursor.ofText before.toList).rest ++ '\n' :: Text.withLineFeeds after.toList))) = _
  rw [Position.afterAll_append]
  show ((Cursor.ofText before.toList).atEnd.position.after '\n').afterAll
    (Text.withLineFeeds after.toList) = _
  rw [after_atEnd_ofText, Position.afterAll_down]
  rfl

/-- What follows a text that leaves nothing open starts behind finished trees. -/
theorem fullNest_eq_behind {before : String}
    (hclosed : (fullNest .empty (tokensOf before)).around = []) :
    fullNest .empty (tokensOf before) =
      Nest.empty.behind (fullTreeOf before) (Sketch.down lines) := by
  rw [behind_empty]
  exact eq_whole_of_around_eq_nil hclosed _

/-- The full tree of two texts is that of the first and, further down, that of the second. -/
theorem fullTreeOf_append_line {before : String}
    (hended : ∀ token ∈ tokensOf before, token.isEnded)
    (hclosed : (fullNest .empty (tokensOf before)).around = []) (after : String) :
    fullTreeOf (before ++ "\n" ++ after) =
      fullTreeOf before ++
        map (Sketch.down (Text.lineCount before.toList)) (fullTreeOf after) := by
  have hsplit : fullNest .empty (tokensOf (before ++ "\n" ++ after)) =
      (fullNest .empty (tokensOf after)).behind (fullTreeOf before)
        (Sketch.down (Text.lineCount before.toList)) := by
    rw [tokensOf_append_line hended, ← fullNest_behind, ← fullNest_eq_behind _ hclosed]
    exact List.foldl_append
  have hstop : ∀ s : Sketch, (s.endAt (endOf after)).down (Text.lineCount before.toList) =
      (s.down (Text.lineCount before.toList)).endAt
        ((endOf after).down (Text.lineCount before.toList)) := fun _ => rfl
  rw [fullTreeOf, fullTree, hsplit, endOf_append_line]
  exact whole_behind _ hstop _

/-- The first mismatch of two texts is that of the first or else, further down, that of the
second. -/
theorem firstMismatch?_append_line {before : String}
    (hended : ∀ token ∈ tokensOf before, token.isEnded)
    (hclosed : (fullNest .empty (tokensOf before)).around = []) (after : String) :
    firstMismatch? .empty (tokensOf (before ++ "\n" ++ after)) =
      (firstMismatch? .empty (tokensOf before)).or
        ((firstMismatch? .empty (tokensOf after)).map
          (Mismatch.down (Text.lineCount before.toList))) := by
  obtain ⟨notices, hrun⟩ := exists_assemblyOf_eq before
  rw [assemblyOf, fullNest_eq_behind (Text.lineCount before.toList) hclosed] at hrun
  rw [tokensOf_append_line hended, firstMismatch?_append, hrun, firstMismatch?_behind _ _ _ _ [],
    ofNest_empty]

/-- The elements of a text further down are its elements further down. -/
theorem map_sketchOf_down (forest : Forest Element) :
    map sketchOf (map (Element.down lines) forest) =
      map (Sketch.down lines) (map sketchOf forest) := by
  induction forest using Forest.induct with
  | nil => simp
  | cons t ts below beside =>
    simp only [map_cons, below, beside]
    rfl

/-- A text that leaves no tag open and ends in no aside does not show in how the text behind it is
read. Both together are read as the elements of the first and those of the second, which stand as
many lines further down as the first has lines. If the first text is read strictly, both together
are read strictly exactly if the second is, with the same elements; else they fail as the second
does, as many lines further down. -/
theorem read_concatenated (before after : String) (hclosed : (assemblyOf before).openTags = [])
    (hasides : .aside false ∉ tokensOf before) :
    ∃ forest forest', (read false before).outcome = .ok forest ∧
      (read false after).outcome = .ok forest' ∧
      (read false (before ++ "\n" ++ after)).outcome =
        .ok (forest ++ map (Element.down (Text.lineCount before.toList)) forest') ∧
      ∀ parsed, (read true before).outcome = .ok parsed →
        (read true (before ++ "\n" ++ after)).outcome =
          match (read true after).outcome with
          | .ok parsed' => .ok (parsed ++ map (Element.down (Text.lineCount before.toList)) parsed')
          | .error failure => .error (failure.down (Text.lineCount before.toList)) := by
  have haround : (fullNest .empty (tokensOf before)).around = [] := by
    obtain ⟨notices, hrun⟩ := exists_assemblyOf_eq before
    rw [hrun] at hclosed
    exact around_eq_nil_of_openTags hclosed
  have hended : ∀ token ∈ tokensOf before, token.isEnded :=
    isEnded_of_around_eq_nil haround hasides
  obtain ⟨forest, hforest⟩ := exists_map_sketchOf_eq_prune before
  obtain ⟨forest', hforest'⟩ := exists_map_sketchOf_eq_prune after
  have hboth : map sketchOf
      (forest ++ map (Element.down (Text.lineCount before.toList)) forest') =
        prune (fullTreeOf (before ++ "\n" ++ after)) := by
    rw [fullTreeOf_append_line hended haround, prune_append,
      prune_map (f := Sketch.down (Text.lineCount before.toList)) (fun _ => rfl), map_append,
      map_sketchOf_down, hforest, hforest']
  have hlenient := outcome_read_false hboth
  refine ⟨forest, forest', outcome_read_false hforest, outcome_read_false hforest', hlenient, ?_⟩
  intro parsed hparsed
  have hfirst := firstMismatch?_append_line hended haround after
  rw [outcome_read_true before] at hparsed
  cases hnone : firstMismatch? .empty (tokensOf before) with
  | some m =>
    rw [hnone] at hparsed
    exact absurd hparsed (by simp)
  | none =>
    rw [hnone] at hparsed
    have hsame : forest = parsed := by
      rw [outcome_read_false hforest] at hparsed
      exact Except.ok.inj hparsed
    rw [hnone, Option.none_or] at hfirst
    rw [outcome_read_true, hfirst, outcome_read_true after, hlenient, outcome_read_false hforest',
      hsame]
    cases firstMismatch? .empty (tokensOf after) with
    | some m => rfl
    | none => rfl

/-- The content of the property element stands in its place, the last tag of the first text closes
nothing, and the first mismatch of the second text is on the second of its lines. -/
theorem read_concatenated_mismatch :
    (assemblyOf "<A.Rows><B/>\n</A.Rows></C>").openTags = [] ∧
      .aside false ∉ tokensOf "<A.Rows><B/>\n</A.Rows></C>" ∧
      (read true ("<A.Rows><B/>\n</A.Rows></C>" ++ "\n" ++ "<P>\n<Q></P>")).outcome =
        .error (.mismatch ⟨"Q", "P", 3⟩) := by
  have hclosed : (assemblyOf "<A.Rows><B/>\n</A.Rows></C>").openTags = [] := by decide +kernel
  have hasides : .aside false ∉ tokensOf "<A.Rows><B/>\n</A.Rows></C>" := by decide +kernel
  have hlines : Text.lineCount "<A.Rows><B/>\n</A.Rows></C>".toList = 2 := by decide
  have hok : (read true "<A.Rows><B/>\n</A.Rows></C>").outcome.isOk = true := by decide +kernel
  have hfails : (read true "<P>\n<Q></P>").outcome = .error (.mismatch ⟨"Q", "P", 1⟩) := by
    decide +kernel
  obtain ⟨_, _, _, _, _, hstrict⟩ := read_concatenated _ "<P>\n<Q></P>" hclosed hasides
  refine ⟨hclosed, hasides, ?_⟩
  cases hparsed : (read true "<A.Rows><B/>\n</A.Rows></C>").outcome with
  | error failure =>
    rw [hparsed] at hok
    exact absurd hok Bool.false_ne_true
  | ok parsed =>
    rw [hstrict parsed hparsed, hfails, hlines]
    rfl

end Markup

end MarkupOutline
