import Mathlib.Data.List.Forall2
import MarkupOutline.Detector

/-!
# Letter case in the endings of names

Small letters are those of every script; some characters lengthen, and what a capital sigma becomes
depends on its neighbours. For ASCII none of this matters. The case of the ASCII letters makes no
difference to the small letters of a text (`lowerFrom_map_toLower`), and the small letters of a text end
in ASCII characters exactly where the text ends in characters that stand for them one by one
(`endsInLower_iff`); the only character outside of ASCII that does is the Kelvin sign, for a `k`
(`toLower_eq_of_lowerChar_eq`).
-/

namespace MarkupOutline

namespace Text

/-! ## The letters of ASCII -/

/-- Whether a character is one of ASCII. -/
def isAscii (c : Char) : Bool :=
  c.toNat < 0x80

/-- Texts that differ in nothing but the case of ASCII letters. -/
def SameButCase (s t : String) : Prop :=
  s.toList.map Char.toLower = t.toList.map Char.toLower

instance (s t : String) : Decidable (SameButCase s t) :=
  inferInstanceAs (Decidable (s.toList.map Char.toLower = t.toList.map Char.toLower))

/-- Only the letters from `A` to `Z` move. -/
theorem toNat_toLower (c : Char) :
    c.toLower.toNat = if 0x41 ≤ c.toNat ∧ c.toNat ≤ 0x5A then c.toNat + 0x20 else c.toNat := by
  have hupper : (c.val ≥ 'A'.val ∧ c.val ≤ 'Z'.val) ↔ 0x41 ≤ c.toNat ∧ c.toNat ≤ 0x5A := Iff.rfl
  unfold Char.toLower
  split
  · next h =>
    rw [if_pos (hupper.1 h)]
    show (c.val + 0x20).toNat = c.val.toNat + 0x20
    have hle : c.val.toNat ≤ 0x5A := (hupper.1 h).2
    rw [UInt32.toNat_add, Nat.mod_eq_of_lt]
    · rfl
    · show c.val.toNat + 0x20 < 2 ^ 32
      omega
  · next h => rw [if_neg (fun hmoves => h (hupper.2 hmoves))]

theorem isAscii_toLower (c : Char) : isAscii c.toLower = isAscii c := by
  rw [isAscii, isAscii, toNat_toLower, decide_eq_decide]
  split <;> omega

theorem toLower_eq_self {c : Char} (h : ¬ isAscii c) : c.toLower = c := by
  rw [isAscii, decide_eq_true_eq] at h
  rw [← Char.toNat_inj, toNat_toLower, if_neg]
  omega

theorem toLower_toLower (c : Char) : c.toLower.toLower = c.toLower := by
  rw [← Char.toNat_inj, toNat_toLower, if_neg]
  rw [toNat_toLower]
  split <;> omega

/-! ## Small letters of ASCII letters -/

theorem lookup_lowerRuns {n : Nat} (h : n < 0x80) :
    CaseRun.lookup n lowerRuns = if 0x41 ≤ n ∧ n ≤ 0x5A then some (n + 0x20) else none := by
  have hall : ∀ n < 0x80,
      CaseRun.lookup n lowerRuns = if 0x41 ≤ n ∧ n ≤ 0x5A then some (n + 0x20) else none := by
    decide
  exact hall n h

theorem lowerChar_of_isAscii {c : Char} (h : isAscii c) : lowerChar c = [c.toLower] := by
  have hdotted : c ≠ 'İ' := by
    rintro rfl
    exact absurd h (by decide)
  rw [isAscii, decide_eq_true_eq] at h
  have hsame := toNat_toLower c
  rw [lowerChar, if_neg hdotted, lookup_lowerRuns h]
  split
  · next hupper =>
    rw [if_pos hupper] at hsame
    rw [Option.map_some, Option.getD_some, ← hsame, Char.ofNat_toNat]
  · next hupper =>
    rw [if_neg hupper, Char.toNat_inj] at hsame
    rw [Option.map_none, Option.getD_none, hsame]

theorem lowerChar_toLower (c : Char) : lowerChar c.toLower = lowerChar c := by
  by_cases h : isAscii c
  · rw [lowerChar_of_isAscii h, lowerChar_of_isAscii (by rwa [isAscii_toLower]), toLower_toLower]
  · rw [toLower_eq_self h]

/-! ## The neighbours of a sigma -/

theorem inRanges_toLower {ranges : List (Nat × Nat)}
    (h : ∀ n < 26, inRanges (0x41 + n) ranges = inRanges (0x61 + n) ranges) (c : Char) :
    inRanges c.toLower.toNat ranges = inRanges c.toNat ranges := by
  rw [toNat_toLower]
  split
  · next hupper =>
    have hmoved := h (c.toNat - 0x41) (by omega)
    rw [show 0x41 + (c.toNat - 0x41) = c.toNat by omega,
      show 0x61 + (c.toNat - 0x41) = c.toNat + 0x20 by omega] at hmoved
    exact hmoved.symm
  · rfl

theorem isCased_toLower (c : Char) : isCased c.toLower = isCased c :=
  inRanges_toLower (by decide +kernel) c

theorem isCaseIgnorable_toLower (c : Char) : isCaseIgnorable c.toLower = isCaseIgnorable c :=
  inRanges_toLower (by decide +kernel) c

theorem beginsCased_map_toLower (cs : List Char) :
    beginsCased (cs.map Char.toLower) = beginsCased cs := by
  unfold beginsCased
  induction cs with
  | nil => rfl
  | cons c cs ih =>
    rw [List.map_cons, List.dropWhile_cons, List.dropWhile_cons, isCaseIgnorable_toLower]
    split
    · exact ih
    · exact isCased_toLower c

theorem lowerBetween_map_toLower (before : List Char) (c : Char) (behind : List Char) :
    lowerBetween (before.map Char.toLower) c.toLower (behind.map Char.toLower) =
      lowerBetween before c behind := by
  have hsigma : c.toLower = 'Σ' ↔ c = 'Σ' := by
    rw [← Char.toNat_inj, ← Char.toNat_inj, toNat_toLower]
    show _ = 0x3A3 ↔ _ = 0x3A3
    split <;> omega
  simp only [lowerBetween, hsigma, beginsCased_map_toLower, lowerChar_toLower]

/-- The case of ASCII letters makes no difference to the small letters of a text. -/
theorem lowerFrom_map_toLower (before cs : List Char) :
    lowerFrom (before.map Char.toLower) (cs.map Char.toLower) = lowerFrom before cs := by
  induction cs generalizing before with
  | nil => rfl
  | cons c cs ih =>
    have hrest := ih (c :: before)
    rw [List.map_cons] at hrest
    rw [List.map_cons, lowerFrom, lowerFrom, lowerBetween_map_toLower, hrest]

theorem SameButCase.lower_eq {s t : String} (h : SameButCase s t) :
    lower s.toList = lower t.toList := by
  rw [lower, ← lowerFrom_map_toLower, h, lowerFrom_map_toLower, lower]

/-! ## What stands for ASCII characters -/

theorem exists_mem_of_lookup {n m : Nat} {runs : List CaseRun}
    (h : CaseRun.lookup n runs = some m) :
    ∃ r ∈ runs, r.first ≤ n ∧ n ≤ r.last ∧ m = (n + r.shift).toNat := by
  induction runs with
  | nil => simp [CaseRun.lookup] at h
  | cons r runs ih =>
    rw [CaseRun.lookup] at h
    split at h
    · simp at h
    · next hfirst =>
      split at h
      · next hhere =>
        rw [Bool.and_eq_true, decide_eq_true_eq] at hhere
        rw [Option.some.injEq] at h
        exact ⟨r, List.mem_cons_self, Nat.le_of_not_lt hfirst, hhere.1, h.symm⟩
      · obtain ⟨r', hr', hbounds⟩ := ih h
        exact ⟨r', List.mem_cons_of_mem r hr', hbounds⟩

/-- Whether a run leads from code points up to others behind ASCII that are characters. -/
def CaseRun.LeavesAscii (r : CaseRun) : Prop :=
  0x80 ≤ r.first + r.shift ∧
    (r.last + r.shift < 0xD800 ∨ 0xE000 ≤ r.first + r.shift ∧ r.last + r.shift < 0x110000)

instance (r : CaseRun) : Decidable r.LeavesAscii :=
  inferInstanceAs (Decidable (_ ∧ _))

theorem CaseRun.LeavesAscii.not_isAscii_ofNat {r : CaseRun} (h : r.LeavesAscii) {n : Nat}
    (hfirst : r.first ≤ n) (hlast : n ≤ r.last) :
    ¬ isAscii (Char.ofNat (n + r.shift).toNat) := by
  obtain ⟨hle, hvalid⟩ := h
  have hchar : (n + r.shift).toNat.isValidChar := by
    rcases hvalid with hbelow | ⟨habove, hlt⟩
    · exact .inl (by omega)
    · exact .inr ⟨by omega, by omega⟩
  have hnat : (Char.ofNat (n + r.shift).toNat).toNat = (n + r.shift).toNat := by
    rw [Char.ofNat, dif_pos hchar]
    rfl
  rw [isAscii, decide_eq_true_eq, hnat]
  omega

/-- No run but that of the ASCII letters and that of the Kelvin sign leads into ASCII. -/
theorem leavesAscii_of_mem_lowerRuns :
    ∀ r ∈ lowerRuns, r.last < 0x80 ∨ r.first = 0x212A ∧ r.last = 0x212A ∨ r.LeavesAscii := by
  decide +kernel

/-- An ASCII character is the small form of itself and of its capital form, and `k` also that of the
Kelvin sign. -/
theorem toLower_eq_of_lowerChar_eq {c e : Char} (he : isAscii e) (h : lowerChar c = [e]) :
    c.toLower = e ∨ c = '\u212A' ∧ e = 'k' := by
  by_cases hc : isAscii c
  · rw [lowerChar_of_isAscii hc, List.singleton_inj] at h
    exact .inl h
  · have hsmall := h
    unfold lowerChar at h
    split at h
    · simp at h
    · rw [List.singleton_inj] at h
      cases hlookup : CaseRun.lookup c.toNat lowerRuns with
      | none =>
        rw [hlookup] at h
        exact .inl ((toLower_eq_self hc).trans h)
      | some m =>
        rw [hlookup, Option.map_some, Option.getD_some] at h
        obtain ⟨r, hr, hfirst, hlast, hm⟩ := exists_mem_of_lookup hlookup
        rw [isAscii, decide_eq_true_eq] at hc
        -- only a run that leads into ASCII from outside can reach `e`
        rcases leavesAscii_of_mem_lowerRuns r hr with hascii | ⟨hkelvin, hkelvin'⟩ | hleaves
        · omega
        · have hsign : c = '\u212A' := by
            rw [← Char.toNat_inj]
            show c.toNat = 0x212A
            omega
          have hk : lowerChar '\u212A' = ['k'] := by decide +kernel
          rw [hsign, hk, List.singleton_inj] at hsmall
          exact .inr ⟨hsign, hsmall.symm⟩
        · have houtside := hleaves.not_isAscii_ofNat hfirst hlast
          rw [← hm] at houtside
          exact absurd (h ▸ he) houtside

theorem lowerBetween_cases (before : List Char) (c : Char) (behind : List Char) :
    lowerBetween before c behind = ['i', '\u0307'] ∨
      ∃ d, lowerBetween before c behind = [d] ∧ (isAscii d → lowerChar c = [d]) := by
  unfold lowerBetween
  split
  · split
    · exact .inr ⟨'ς', rfl, fun h => absurd h (by decide)⟩
    · exact .inr ⟨'σ', rfl, fun h => absurd h (by decide)⟩
  · unfold lowerChar
    split
    · exact .inl rfl
    · exact .inr ⟨_, rfl, fun _ => rfl⟩

/-- Where ASCII characters end the small form of a character, there is one, and it is all of it. -/
theorem exists_of_suffix_lowerBetween {before behind es : List Char} {c : Char}
    (h : es <:+ lowerBetween before c behind) (hne : es ≠ []) (hes : ∀ e ∈ es, isAscii e) :
    ∃ e, es = [e] ∧ lowerBetween before c behind = [e] ∧ lowerChar c = [e] := by
  rcases lowerBetween_cases before c behind with hdotted | ⟨d, hsingle, hsmall⟩
  · -- the dot above is the last character, and no ASCII
    rw [hdotted] at h
    have hdot : '\u0307' ∈ es := by
      obtain ⟨front, hfront⟩ := h
      have hlast := congrArg List.getLast? hfront
      rw [List.getLast?_append_of_ne_nil _ hne] at hlast
      exact List.mem_of_getLast? hlast
    exact absurd (hes _ hdot) (by decide)
  · rw [hsingle] at h
    have hes' : es = [d] := by
      rcases List.suffix_cons_iff.1 h with hwhole | hnil
      · exact hwhole
      · exact absurd (List.suffix_nil.1 hnil) hne
    subst hes'
    exact ⟨d, rfl, hsingle, hsmall (hes d List.mem_cons_self)⟩

/-! ## The end of a text in small letters -/

/-- The characters `cs` stand one by one for the characters `es`: the small form of each is the
other. -/
def StandFor (cs es : List Char) : Prop :=
  List.Forall₂ (fun c e => lowerChar c = [e]) cs es

variable {before cs es : List Char}

/-- A text whose small form is all ASCII stands for it. -/
theorem standFor_of_lowerFrom_eq (hes : ∀ e ∈ es, isAscii e) (h : lowerFrom before cs = es) :
    StandFor cs es := by
  induction cs generalizing before es with
  | nil => exact h ▸ .nil
  | cons c cs ih =>
    rw [lowerFrom] at h
    subst h
    rw [List.forall_mem_append] at hes
    have hne : lowerBetween before c cs ≠ [] := by
      rcases lowerBetween_cases before c cs with hdotted | ⟨d, hsingle, -⟩
      · rw [hdotted]
        exact List.cons_ne_nil _ _
      · rw [hsingle]
        exact List.cons_ne_nil _ _
    obtain ⟨e, he, -, hsmall⟩ := exists_of_suffix_lowerBetween List.suffix_rfl hne hes.1
    rw [he]
    exact .cons hsmall (ih hes.2 rfl)

/-- The small form of a text ends in ASCII characters only where the text ends in characters that
stand for them. -/
theorem exists_standFor_of_suffix (hes : ∀ e ∈ es, isAscii e) (h : es <:+ lowerFrom before cs) :
    ∃ u v, cs = u ++ v ∧ StandFor v es := by
  induction cs generalizing before with
  | nil =>
    rw [lowerFrom, List.suffix_nil] at h
    exact ⟨[], [], rfl, h ▸ .nil⟩
  | cons c cs ih =>
    rw [lowerFrom] at h
    rcases List.suffix_or_suffix_of_suffix h (List.suffix_append _ _) with hshort | ⟨front, hfront⟩
    · obtain ⟨u, v, rfl, hv⟩ := ih hshort
      exact ⟨c :: u, v, rfl, hv⟩
    · -- the end takes up all that is behind `c`, and `front` of what `c` becomes
      rw [← hfront, List.suffix_append_self_iff] at h
      rw [← hfront, List.forall_mem_append] at hes
      have hrest := standFor_of_lowerFrom_eq hes.2 rfl
      rcases List.eq_nil_or_concat front with hnil | ⟨init, last, hconcat⟩
      · rw [hnil, List.nil_append] at hfront
        exact ⟨[c], cs, rfl, hfront ▸ hrest⟩
      · have hne : front ≠ [] := by simp [hconcat]
        obtain ⟨e, rfl, -, hsmall⟩ := exists_of_suffix_lowerBetween h hne hes.1
        exact ⟨[], c :: cs, rfl, hfront ▸ .cons hsmall hrest⟩

/-- Characters that stand for ASCII characters have these for their small form, wherever they
stand. -/
theorem StandFor.lowerFrom_eq (h : StandFor cs es) (hes : ∀ e ∈ es, isAscii e)
    (before : List Char) : lowerFrom before cs = es := by
  induction h generalizing before with
  | nil => rfl
  | @cons c e cs es hsmall _ ih =>
    rw [List.forall_mem_cons] at hes
    have hsigma : c ≠ 'Σ' := by
      rintro rfl
      have hsingle : lowerChar 'Σ' = ['σ'] := by decide +kernel
      rw [hsingle, List.singleton_inj] at hsmall
      exact absurd (hsmall ▸ hes.1) (by decide)
    rw [lowerFrom, lowerBetween, if_neg hsigma, hsmall, ih hes.2]
    rfl

/-- The small form of a text ends in that of its end, with what stands in front of it in view. -/
theorem lowerFrom_suffix (before u v : List Char) :
    lowerFrom (u.reverse ++ before) v <:+ lowerFrom before (u ++ v) := by
  induction u generalizing before with
  | nil => exact List.suffix_rfl
  | cons c u ih =>
    have hrest := ih (c :: before)
    rw [List.cons_append, lowerFrom, List.reverse_cons, List.append_assoc, List.singleton_append]
    exact hrest.trans (List.suffix_append _ _)

theorem lower_of_isAscii (hes : ∀ e ∈ es, isAscii e) : lower es = es.map Char.toLower := by
  refine StandFor.lowerFrom_eq ?_ (List.forall_mem_map.2 fun e he => ?_) []
  · rw [StandFor, List.forall₂_map_right_iff, List.forall₂_same]
    exact fun e he => lowerChar_of_isAscii (hes e he)
  · rw [isAscii_toLower]
    exact hes e he

/-- Characters that differ from ASCII characters in nothing but their case stand for them. -/
theorem standFor_map_toLower {es : List Char} (hes : ∀ e ∈ es, isAscii e)
    (h : cs.map Char.toLower = es.map Char.toLower) : StandFor cs (es.map Char.toLower) := by
  rw [← h, StandFor, List.forall₂_map_right_iff, List.forall₂_same]
  intro c hc
  have hmem : c.toLower ∈ es.map Char.toLower := h ▸ List.mem_map_of_mem hc
  obtain ⟨e, he, hsame⟩ := List.mem_map.1 hmem
  have hascii : isAscii c := by
    rw [← isAscii_toLower, ← hsame, isAscii_toLower]
    exact hes e he
  exact lowerChar_of_isAscii hascii

/-- Where no `k` is meant, nothing else stands for ASCII characters. -/
theorem StandFor.map_toLower_eq (h : StandFor cs es) (hes : ∀ e ∈ es, isAscii e)
    (hk : 'k' ∉ es) : cs.map Char.toLower = es := by
  induction h with
  | nil => rfl
  | @cons c e cs es hsmall _ ih =>
    rw [List.forall_mem_cons] at hes
    rw [List.mem_cons, not_or] at hk
    rcases toLower_eq_of_lowerChar_eq hes.1 hsmall with hsame | ⟨-, rfl⟩
    · rw [List.map_cons, hsame, ih hes.2 hk.2]
    · exact absurd rfl hk.1

/-- The ASCII characters that a text ends in are told by the small form of the text. -/
theorem endsInLower_iff {ending : List Char} (h : ∀ e ∈ ending, isAscii e) :
    Detector.endsInLower cs ending ↔
      ∃ u v, cs = u ++ v ∧ StandFor v (ending.map Char.toLower) := by
  have hsmall : ∀ e ∈ ending.map Char.toLower, isAscii e :=
    List.forall_mem_map.2 fun e he => by
      rw [isAscii_toLower]
      exact h e he
  rw [Detector.endsInLower, endsIn_iff, lower_of_isAscii h]
  constructor
  · exact exists_standFor_of_suffix hsmall
  · rintro ⟨u, v, rfl, hv⟩
    rw [← hv.lowerFrom_eq hsmall (u.reverse ++ [])]
    exact lowerFrom_suffix [] u v

end Text

namespace Detector

/-! ## Documents by the ending of their name -/

theorem accepts_extension (d : Document) (endings : List String) :
    accepts d (.extension endings) ↔
      ∃ ending ∈ endings, endsInLower d.uri.toList ending.toList := by
  rw [accepts, List.any_eq_true]

/-- Only the name and the endings in small letters count. -/
theorem accepts_extension_congr {endings endings' : List String}
    (hendings : List.Forall₂ Text.SameButCase endings endings') {d d' : Document}
    (huri : Text.SameButCase d.uri d'.uri) :
    accepts d (.extension endings) = accepts d' (.extension endings') := by
  rw [accepts, accepts]
  induction hendings with
  | nil => rfl
  | cons hending _ ih =>
    rw [List.any_cons, List.any_cons, ih, endsInLower, endsInLower, huri.lower_eq,
      hending.lower_eq]

/-- An ASCII ending without the letter `k` is found where the name ends in it, whatever the case of
the letters, and nowhere else. -/
theorem accepts_extension_iff {ending : String}
    (h : ∀ c ∈ ending.toList, Text.isAscii c ∧ c.toLower ≠ 'k') (d : Document) :
    accepts d (.extension [ending]) ↔ ∃ u v, d.uri = u ++ v ∧ Text.SameButCase v ending := by
  have hascii : ∀ c ∈ ending.toList, Text.isAscii c := fun c hc => (h c hc).1
  rw [accepts_extension]
  simp only [List.mem_singleton, exists_eq_left, Text.endsInLower_iff hascii]
  constructor
  · rintro ⟨u, v, huri, hv⟩
    refine ⟨String.ofList u, String.ofList v, ?_, ?_⟩
    · rw [← String.ofList_append, ← huri, String.ofList_toList]
    · rw [Text.SameButCase, String.toList_ofList]
      refine hv.map_toLower_eq (List.forall_mem_map.2 fun c hc => ?_) fun hk => ?_
      · rw [Text.isAscii_toLower]
        exact hascii c hc
      · obtain ⟨c, hc, hsame⟩ := List.mem_map.1 hk
        exact (h c hc).2 hsame
  · rintro ⟨u, v, huri, hv⟩
    exact ⟨u.toList, v.toList, by rw [huri, String.toList_append],
      Text.standFor_map_toLower hascii hv⟩

/-- A document is known by an ASCII ending of its name whatever the case of the letters in which the
ending is written, and whatever stands in front of it. The case of ASCII letters, in the name or in
the endings, makes no difference at all. By the ending `.axaml` no document is known whose name does
not end in these six characters, apart from their case. -/
theorem accepts_extension_sameButCase :
    (∀ endings : List String, (∀ ending ∈ endings, ∀ c ∈ ending.toList, Text.isAscii c) →
      ∀ ending ∈ endings, ∀ variant, Text.SameButCase variant ending →
        ∀ (d : Document) (u : String),
          accepts { d with uri := u ++ variant } (.extension endings) = true) ∧
    (∀ endings endings' : List String, List.Forall₂ Text.SameButCase endings endings' →
      ∀ d d' : Document, Text.SameButCase d.uri d'.uri →
        accepts d (.extension endings) = accepts d' (.extension endings')) ∧
    ∀ d : Document, accepts d (.extension [".axaml"]) = true ↔
      ∃ u v, d.uri = u ++ v ∧ Text.SameButCase v ".axaml" := by
  refine ⟨fun endings hascii ending hending variant hvariant d u => ?_,
    fun endings endings' h d d' => accepts_extension_congr h,
    accepts_extension_iff (by simp [Text.isAscii])⟩
  refine (accepts_extension _ endings).2 ⟨ending, hending, ?_⟩
  exact (Text.endsInLower_iff (hascii ending hending)).2
    ⟨u.toList, variant.toList, String.toList_append,
      Text.standFor_map_toLower (hascii ending hending) hvariant⟩

/-- Behind a final sigma and a Kelvin sign the ending is known as anywhere. -/
theorem accepts_extension_sameButCase_sigma :
    (∀ ending ∈ [".k", ".axaml"], ∀ c ∈ ending.toList, Text.isAscii c) ∧
      Text.SameButCase ".AxamL" ".axaml" ∧
      accepts ⟨"\u212AΑΣ" ++ ".AxamL", none, 0, ""⟩ (.extension [".k", ".axaml"]) = true :=
by
  have hascii : ∀ ending ∈ [".k", ".axaml"], ∀ c ∈ ending.toList, Text.isAscii c := by
    simp [Text.isAscii]
  exact ⟨hascii, by decide, accepts_extension_sameButCase.1 [".k", ".axaml"] hascii ".axaml"
    (by decide) ".AxamL" (by decide) ⟨"", none, 0, ""⟩ "\u212AΑΣ"⟩

/-- For a `k` a Kelvin sign may stand. -/
example : accepts ⟨"a.\u212AIT", none, 0, ""⟩ (.extension [".kit"]) = true := by decide +kernel

end Detector

end MarkupOutline
