import MarkupOutline.Attributes
import MarkupOutline.Name
import MarkupOutline.Text.Blank
import MarkupOutline.Text.Search

/-!
# Attributes in the text of a tag

Attributes are read from the text of a tag with every run of blanks made one space: the leftmost
`key="value"` first, then the leftmost behind it, and so on, whatever stands between them. The
equations of `Attributes.pairs` say what each character of that text leads to.
-/

namespace MarkupOutline.Attributes

/-- The marks between which a value stands. -/
def isQuote (c : Char) : Bool :=
  c == '"' || c == '\''

/-- The value that an equals sign and a quotation mark begin, and the text behind the mark that
ends it. -/
def readValue? (cs : List Char) : Option (List Char × List Char) :=
  match cs.dropWhile Text.isBlank with
  | '=' :: rest =>
    match rest.dropWhile Text.isBlank with
    | quote :: body =>
      if isQuote quote then
        match body.dropWhile (· ≠ quote) with
        | _ :: behind => some (body.takeWhile (· ≠ quote), behind)
        | [] => none
      else none
    | [] => none
  | _ => none

theorem length_readValue?_lt {cs value behind : List Char}
    (h : readValue? cs = some (value, behind)) : behind.length < cs.length := by
  unfold readValue? at h
  split at h
  · next rest hrest =>
    have h₁ := Text.length_dropWhile_le (p := Text.isBlank) cs
    rw [hrest] at h₁
    split at h
    · next quote body hbody =>
      have h₂ := Text.length_dropWhile_le (p := Text.isBlank) rest
      rw [hbody] at h₂
      split at h
      · split at h
        · next q out hout =>
          have h₃ := Text.length_dropWhile_le (p := (· ≠ quote)) body
          rw [hout] at h₃
          simp only [Option.some.injEq, Prod.mk.injEq] at h
          simp only [List.length_cons, ← h.2] at *
          omega
        · simp at h
      · simp at h
    · simp at h
  · simp at h

/-- Appends to `done` the attributes of a text. A name that no value follows is passed over
whole, since its ends are followed by the same characters. -/
def pairsOnto (done : Array (String × String)) : List Char → Array (String × String)
  | [] => done
  | c :: rest =>
    if Name.isStart c then
      match _ : readValue? (rest.dropWhile Name.isPart) with
      | some (value, behind) =>
        pairsOnto
          (done.push (String.ofList (c :: rest.takeWhile Name.isPart), String.ofList value)) behind
      | none => pairsOnto done (rest.dropWhile Name.isPart)
    else pairsOnto done rest
termination_by cs => cs.length
decreasing_by
  · have := length_readValue?_lt ‹_›
    have := Text.length_dropWhile_le (p := Name.isPart) rest
    simp only [List.length_cons]
    omega
  · have := Text.length_dropWhile_le (p := Name.isPart) rest
    simp only [List.length_cons]
    omega
  · simp

/-- The attributes of a text one by one, repeated keys included. -/
def pairs (cs : List Char) : List (String × String) :=
  (pairsOnto #[] cs).toList

theorem pairsOnto_append (before done : Array (String × String)) (cs : List Char) :
    pairsOnto (before ++ done) cs = before ++ pairsOnto done cs := by
  fun_induction pairsOnto done cs with
  | case1 done => rw [pairsOnto]
  | case2 done c rest hc value behind hvalue ih =>
    rw [pairsOnto, if_pos hc, ← ih]
    split <;> simp_all [Array.push_append]
  | case3 done c rest hc hvalue ih =>
    rw [pairsOnto, if_pos hc, ← ih]
    split <;> simp_all
  | case4 done c rest hc ih => rw [pairsOnto, if_neg hc, ih]

@[simp]
theorem pairs_nil : pairs [] = [] := by
  simp [pairs, pairsOnto]

/-- Where no name begins, reading goes on with the next character. -/
theorem pairs_cons_of_not_isStart {c : Char} (rest : List Char) (hc : ¬ Name.isStart c) :
    pairs (c :: rest) = pairs rest := by
  rw [pairs, pairsOnto, if_neg hc, pairs]

/-- Where a name begins, an attribute is read if a value follows the name. -/
theorem pairs_cons_of_isStart {c : Char} (rest : List Char) (hc : Name.isStart c) :
    pairs (c :: rest) =
      match readValue? (rest.dropWhile Name.isPart) with
      | some (value, behind) =>
        (String.ofList (c :: rest.takeWhile Name.isPart), String.ofList value) :: pairs behind
      | none => pairs (rest.dropWhile Name.isPart) := by
  rw [pairs, pairsOnto, if_pos hc]
  split
  · next value behind hvalue =>
    have moved := pairsOnto_append
      #[(String.ofList (c :: rest.takeWhile Name.isPart), String.ofList value)] #[] behind
    rw [Array.append_empty] at moved
    rw [hvalue, Array.push_eq_append, Array.empty_append, moved, Array.toList_append]
    rfl
  · next hvalue => rw [hvalue, pairs]

/-- The attributes of a tag with the given text. -/
def ofText (cs : List Char) : Attributes :=
  ofList (pairs (Text.trim (Text.collapse cs)))

end MarkupOutline.Attributes
