import MarkupOutline.Proofs.ServiceAnswers
import MarkupOutline.Service.Outcome

/-!
# What can be sent

A value is encoded if no string in it is garbled, whatever stands in front of it (`Json.Encodes`).
Of what was sent with a request only the name of the document comes back, and only with the status
200. So a response is sent unless its status is 200 and the name is no text
(`send_answer_of_text`, `send_answer_of_garbled`).
-/

namespace MarkupOutline

universe u

/-! ## Values that are encoded -/

namespace Json

/-- A value is encoded wherever it stands. -/
def Encodes (value : Json) : Prop :=
  ∀ n, ∃ m, value.encodeFrom n = .ok m

theorem encodes_null : Encodes null :=
  fun _ => ⟨_, rfl⟩

theorem encodes_integer (i : Int) : Encodes (integer i) :=
  fun _ => ⟨_, rfl⟩

theorem encodes_string (s : String) : Encodes (string s) :=
  fun _ => ⟨_, rfl⟩

/-- Items are encoded one behind the other. -/
theorem exists_encodeItemsFrom {xs : List Json} (h : ∀ x ∈ xs, Encodes x) (n : Nat) :
    ∃ m, encodeItemsFrom n xs = .ok m := by
  induction xs generalizing n with
  | nil => exact ⟨_, rfl⟩
  | cons x xs ih =>
    obtain ⟨hx, hxs⟩ := List.forall_mem_cons.1 h
    obtain ⟨m, hm⟩ := hx (n + 1)
    obtain ⟨last, hlast⟩ := ih hxs m
    exact ⟨last, by rw [encodeItemsFrom, hm]; exact hlast⟩

theorem encodes_array {xs : List Json} (h : ∀ x ∈ xs, Encodes x) : Encodes (array xs) := by
  intro n
  cases xs with
  | nil => exact ⟨_, rfl⟩
  | cons x xs => exact exists_encodeItemsFrom h n

/-- Fields are encoded one behind the other. -/
theorem exists_encodeFieldsFrom {fields : List (String × Json)}
    (h : ∀ field ∈ fields, Encodes field.2) (n : Nat) :
    ∃ m, encodeFieldsFrom n fields = .ok m := by
  induction fields generalizing n with
  | nil => exact ⟨_, rfl⟩
  | cons field fields ih =>
    obtain ⟨hfield, hfields⟩ := List.forall_mem_cons.1 h
    obtain ⟨m, hm⟩ := hfield (n + 1 + (writeString field.1).length + 1)
    obtain ⟨last, hlast⟩ := ih hfields m
    exact ⟨last, by rw [encodeFieldsFrom, hm]; exact hlast⟩

theorem encodes_object {fields : List (String × Json)}
    (h : ∀ field ∈ fields, Encodes field.2) : Encodes (object fields) := by
  intro n
  cases fields with
  | nil => exact ⟨_, rfl⟩
  | cons field fields => exact exists_encodeFieldsFrom h n

/-- A garbled string is not encoded, whatever stands behind it. -/
theorem encodeFrom_garbled_cons (name : String) (s : Garbled) (fields : List (String × Json)) :
    (object ((name, .garbled s) :: fields)).encodeFrom 0 =
      .error (s.unencodable ((writeString name).length + 1 + (writeString s.before).length)) := by
  have hplace : 0 + 1 + (writeString name).length + 1 + (writeString s.before).length - 1 =
      (writeString name).length + 1 + (writeString s.before).length := by omega
  rw [← hplace]
  rfl

end Json

/-! ## What the service writes -/

namespace Encoding

open Json

theorem encodes_span (s : Span) : Encodes (span s) := by
  have hposition (p : Position) : Encodes (position p) := by
    refine encodes_array ?_
    simp [encodes_integer]
  refine encodes_object ?_
  simp [hposition]

theorem encodes_symbol (s : Outline.Symbol) {below : List Json} (h : ∀ x ∈ below, Encodes x) :
    Encodes (symbol s below) := by
  refine encodes_object ?_
  simp [encodes_string, encodes_span, encodes_array h]

theorem encodes_entry (e : Listing.Entry) : Encodes (entry e) := by
  refine encodes_object ?_
  simp [encodes_string, encodes_integer, ofNat]

theorem encodes_element (e : Element) {below : List Json} (h : ∀ x ∈ below, Encodes x) :
    Encodes (element e below) := by
  refine encodes_object ?_
  simp only [List.forall_mem_cons, List.not_mem_nil, false_imp_iff, implies_true, and_true]
  refine ⟨encodes_string _, encodes_object (List.forall_mem_map.2 fun _ _ => encodes_string _),
    encodes_string _, encodes_string _, encodes_span _, encodes_array h⟩

/-- A forest is encoded if each of its trees is once those below it are. -/
theorem encodes_of_mem_fold {α : Type u} {shape : α → List Json → Json}
    (h : ∀ a below, (∀ x ∈ below, Encodes x) → Encodes (shape a below)) (ts : Forest α) :
    ∀ x ∈ Forest.fold shape ts, Encodes x := by
  induction ts using Forest.induct with
  | nil => simp
  | cons t ts below beside =>
    rw [Forest.fold_cons]
    exact List.forall_mem_cons.2 ⟨h _ _ below, beside⟩

end Encoding

namespace Service

open Json

theorem encodes_errorBody (message : String) : Encodes (errorBody message) := by
  refine encodes_object ?_
  simp [encodes_string]

theorem encodes_of_outline? {outline : Forest Outline.Symbol} {symbols : Json}
    (h : Encoding.outline? outline = some symbols) : Encodes symbols := by
  rw [Encoding.outline?] at h
  split at h
  · rw [← Option.some.inj h]
    exact encodes_array
      (Encoding.encodes_of_mem_fold (fun s _ => Encoding.encodes_symbol s) outline)
  · simp at h

theorem encodes_of_element? {maxLevels : Nat} {t : Tree Element} {element : Json}
    (h : Encoding.element? maxLevels t = some element) : Encodes element := by
  rw [Encoding.element?] at h
  split at h
  · exact Encoding.encodes_of_mem_fold (fun e _ => Encoding.encodes_element e) [t] element
      (List.mem_of_head? h)
  · simp at h

/-- The name of the document comes first in an answer, and all else is encoded. -/
theorem Query.exists_eq_object_of_body? {uri body : Json} {forest : Forest Element} {q : Query}
    (h : q.body? uri forest = some body) :
    ∃ fields, body = .object (("uri", uri) :: fields) ∧ ∀ field ∈ fields, Encodes field.2 := by
  cases q with
  | outline lineNumbers =>
    rw [body?, Option.map_eq_some_iff] at h
    obtain ⟨symbols, hsymbols, rfl⟩ := h
    refine ⟨_, rfl, ?_⟩
    simp [encodes_of_outline? hsymbols, encodes_integer, ofNat]
  | listing =>
    rw [body?, Option.some.injEq] at h
    refine ⟨_, h.symm, ?_⟩
    have hentries : Encodes (Encoding.listing (Listing.ofForest forest)) :=
      encodes_array (List.forall_mem_map.2 fun e _ => Encoding.encodes_entry e)
    simp [hentries]
  | elementAt p =>
    rw [body?] at h
    cases hfound : Lookup.elementAt p forest with
    | none =>
      rw [hfound] at h
      refine ⟨_, (Option.some.inj h).symm, ?_⟩
      simp [encodes_null]
    | some t =>
      rw [hfound, Option.map_eq_some_iff] at h
      obtain ⟨element, helement, rfl⟩ := h
      refine ⟨_, rfl, ?_⟩
      simp [encodes_of_element? helement, encodes_string]

/-! ## Responses -/

variable {maxKb : Int} {reader : Markup.Reader} {r : Request}

/-- A failure is encoded, and an answer is but for the name that comes first. -/
theorem body_answer_cases (maxKb : Int) (reader : Markup.Reader) (r : Request) :
    ((answer maxKb reader r).status ≠ 200 ∧ Encodes (answer maxKb reader r).body) ∨
      ((answer maxKb reader r).status = 200 ∧
        ∃ fields, (answer maxKb reader r).body = .object (("uri", .ofSent r.uri) :: fields) ∧
          ∀ field ∈ fields, Encodes field.2) := by
  have hfailed {a : Response} {status : Nat} {message : String} (hne : status ≠ 200)
      (h : a.verdict = (status, errorBody message)) : a.status ≠ 200 ∧ Encodes a.body := by
    obtain ⟨hstatus, hbody⟩ := Prod.mk.inj h
    rw [hstatus, hbody]
    exact ⟨hne, encodes_errorBody message⟩
  cases hsize : isTooLarge maxKb r.document.text with
  | true => exact .inl (hfailed (by decide) (verdict_answer_of_isTooLarge reader r hsize))
  | false =>
    have hverdict := verdict_answer reader r hsize
    cases houtcome : r.outcome reader with
    | error f =>
      rw [houtcome] at hverdict
      exact .inl (hfailed (by decide) hverdict)
    | ok forest =>
      rw [houtcome, Request.verdictOf] at hverdict
      cases hbody : r.query.body? (.ofSent r.uri) forest with
      | none =>
        rw [hbody] at hverdict
        exact .inl (hfailed (by decide) hverdict)
      | some body =>
        rw [hbody] at hverdict
        obtain ⟨hstatus, hsame⟩ := Prod.mk.inj hverdict
        refine .inr ⟨hstatus, ?_⟩
        rw [hsame]
        exact Query.exists_eq_object_of_body? hbody

theorem send_of_encodes {a : Response} (h : Encodes a.body) : a.send = .answered a := by
  obtain ⟨m, hm⟩ := h 0
  rw [Response.send, hm]

/-- A response about a document with a proper name is sent. -/
theorem send_answer_of_text {uri : String} (h : r.uri = .text uri) :
    (answer maxKb reader r).send = .answered (answer maxKb reader r) := by
  rcases body_answer_cases maxKb reader r with ⟨_, hencodes⟩ | ⟨_, fields, hbody, hfields⟩
  · exact send_of_encodes hencodes
  · refine send_of_encodes ?_
    rw [hbody, h]
    exact encodes_object (List.forall_mem_cons.2 ⟨encodes_string uri, hfields⟩)

/-- A request is answered if the text and the name of its document are proper ones. -/
theorem handle_of_text {text uri : String} (htext : r.text = .text text)
    (huri : r.uri = .text uri) : r.handle maxKb reader = .answered (answer maxKb reader r) := by
  rw [Request.handle, htext]
  exact send_answer_of_text huri

/-- Under a garbled name only failures are sent. -/
theorem send_answer_of_garbled {s : Garbled} (h : r.uri = .garbled s) :
    (answer maxKb reader r).send =
      if (answer maxKb reader r).status = 200 then
        .brokenOff (s.unencodable (6 + (writeString s.before).length))
          (answer maxKb reader r).records
      else .answered (answer maxKb reader r) := by
  rcases body_answer_cases maxKb reader r with ⟨hfailed, hencodes⟩ | ⟨hok, fields, hbody, _⟩
  · rw [if_neg hfailed, send_of_encodes hencodes]
  · rw [if_pos hok, Response.send, hbody, h, Json.ofSent, encodeFrom_garbled_cons]
    rfl

/-- What is sent with the status 200 is an answer about a document with a proper text and name. -/
theorem exists_text_of_status_handle (h : (r.handle maxKb reader).status = 200) :
    ∃ text uri, r.text = .text text ∧ r.uri = .text uri ∧
      r.handle maxKb reader = .answered (answer maxKb reader r) := by
  cases htext : r.text with
  | garbled s =>
    rw [Request.handle, htext] at h
    simp [Outcome.status] at h
  | text text =>
    cases huri : r.uri with
    | text uri => exact ⟨text, uri, rfl, rfl, handle_of_text htext huri⟩
    | garbled s =>
      rw [Request.handle, htext] at h
      dsimp only at h
      rw [send_answer_of_garbled huri] at h
      by_cases hok : (answer maxKb reader r).status = 200
      · rw [if_pos hok] at h
        simp [Outcome.status] at h
      · rw [if_neg hok] at h
        exact absurd h hok

end Service

end MarkupOutline
