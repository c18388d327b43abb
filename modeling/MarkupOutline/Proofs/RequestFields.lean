import MarkupOutline.Service.Request

/-!
# The fields of a request

All fields of a request are looked at even when one does not fit, but a request is read only if each
of them fits by itself (`read_eq_ok_iff`). What it brings of a document depends on five fields
alone, the same for every question (`Brings.congr`).
-/

namespace MarkupOutline

namespace Field.Checked

variable {α β : Type}

/-- A function and its argument have to fit both. -/
theorem result_seq_eq_ok_iff {f : Checked (α → β)} {x : Checked α} {b : β} :
    (f <*> x).result = .ok b ↔ ∃ g a, f.result = .ok g ∧ x.result = .ok a ∧ g a = b := by
  show (apply f x).result = .ok b ↔ _
  obtain ⟨f⟩ := f
  obtain ⟨x⟩ := x
  cases f with
  | error ps => simp [apply]
  | ok g =>
    cases x with
    | error ps => simp [apply]
    | ok a => simp [apply]

theorem result_map_eq_ok_iff {g : α → β} {x : Checked α} {b : β} :
    (g <$> x).result = .ok b ↔ ∃ a, x.result = .ok a ∧ g a = b := by
  have hmap : g <$> x = (pure g : Checked (α → β)) <*> x := rfl
  have hpure : (pure g : Checked (α → β)).result = .ok g := rfl
  rw [hmap, result_seq_eq_ok_iff, hpure]
  simp

end Field.Checked

/-- A field fits if its value does. -/
theorem Field.result_read_eq_ok_iff {α : Type} {reader : Json → Except Fault α} {name : String}
    {value : Json} {a : α} : (read reader name value).result = .ok a ↔ reader value = .ok a := by
  rw [read]
  cases reader value with
  | error fault => simp
  | ok b => simp

/-- A count is no negative number. -/
theorem Field.natural_ofNat (n : Nat) : natural (.integer n) = .ok (n : Int) := by
  have hnatural : natural (.integer n) =
    if (n : Int) < 0 then .error .negative else .ok (n : Int) := rfl
  rw [hnatural, if_neg (Int.not_lt.2 (Int.natCast_nonneg n))]

namespace Service

open MarkupOutline.Field

/-- An object brings the document of a request, and says whether to test it. -/
structure Brings (object : Json) (r : Request) : Prop where
  text : (required sent "text" (object.field? "text")).result = .ok r.text
  uri : (optional uri (.text "untitled.axaml") "uri" (object.field? "uri")).result = .ok r.uri
  languageId : (optional (nullable sent) none "language_id"
    (object.field? "language_id")).result = .ok r.languageId
  version : (optional natural 0 "version" (object.field? "version")).result = .ok r.version
  detect : (optional boolean false "detect" (object.field? "detect")).result = .ok r.detect

/-- Only five fields tell what document is brought, whatever is asked about it. -/
theorem Brings.congr {object other : Json} {r : Request} (h : Brings object r)
    (hsame : ∀ name ∈ ["text", "uri", "language_id", "version", "detect"],
      other.field? name = object.field? name) (query : Query) :
    Brings other { r with query := query } := by
  simp only [List.mem_cons, List.not_mem_nil, or_false, forall_eq_or_imp, forall_eq] at hsame
  obtain ⟨htext, huri, hlanguageId, hversion, hdetect⟩ := hsame
  exact ⟨htext ▸ h.text, huri ▸ h.uri, hlanguageId ▸ h.languageId, hversion ▸ h.version,
    hdetect ▸ h.detect⟩

/-- A request is read exactly if its fields fit one by one. -/
theorem read_eq_ok_iff {endpoint : Endpoint} {fields : List (String × Json)} {r : Request} :
    Request.read endpoint (some (.object fields)) = .ok r ↔
      Brings (.object fields) r ∧
        (Query.read (.object fields) endpoint).result = .ok r.query := by
  rw [Request.read, Request.readFields]
  simp only [Checked.result_seq_eq_ok_iff, Checked.result_map_eq_ok_iff]
  constructor
  · rintro ⟨_, query, ⟨_, detect, ⟨_, version, ⟨_, languageId, ⟨_, uri, ⟨text, htext, rfl⟩, huri,
      rfl⟩, hlanguageId, rfl⟩, hversion, rfl⟩, hdetect, rfl⟩, hquery, rfl⟩
    exact ⟨⟨htext, huri, hlanguageId, hversion, hdetect⟩, hquery⟩
  · rintro ⟨h, hquery⟩
    exact ⟨_, _, ⟨_, _, ⟨_, _, ⟨_, _, ⟨_, _, ⟨_, h.text, rfl⟩, h.uri, rfl⟩, h.languageId, rfl⟩,
      h.version, rfl⟩, h.detect, rfl⟩, hquery, rfl⟩

/-- The endpoint that takes a question. -/
def Query.endpoint : Query → Endpoint
  | outline _ => .outline
  | listing => .listing
  | elementAt _ => .elementAt

/-- The position of a question for an element is its line and its column. -/
theorem read_elementAt_eq_ok_iff {object : Json} {query : Query} :
    (Query.read object .elementAt).result = .ok query ↔
      ∃ line column, (required natural "line" (object.field? "line")).result = .ok line ∧
        (required natural "column" (object.field? "column")).result = .ok column ∧
        .elementAt ⟨line, column⟩ = query := by
  rw [Query.read]
  simp only [Checked.result_seq_eq_ok_iff, Checked.result_map_eq_ok_iff]
  constructor
  · rintro ⟨_, column, ⟨line, hline, rfl⟩, hcolumn, hquery⟩
    exact ⟨line, column, hline, hcolumn, hquery⟩
  · rintro ⟨line, column, hline, hcolumn, hquery⟩
    exact ⟨_, column, ⟨line, hline, rfl⟩, hcolumn, hquery⟩

/-- Only objects are read as requests. -/
theorem exists_fields_of_read {endpoint : Endpoint} {body : Option Json} {r : Request}
    (h : Request.read endpoint body = .ok r) : ∃ fields, body = some (.object fields) := by
  unfold Request.read at h
  split at h
  · exact ⟨_, rfl⟩
  · simp at h
  · simp at h

/-- An endpoint takes its own questions only. -/
theorem endpoint_of_read {endpoint : Endpoint} {body : Option Json} {r : Request}
    (h : Request.read endpoint body = .ok r) : r.query.endpoint = endpoint := by
  obtain ⟨fields, rfl⟩ := exists_fields_of_read h
  obtain ⟨_, hquery⟩ := read_eq_ok_iff.1 h
  cases endpoint with
  | outline =>
    obtain ⟨lineNumbers, _, hr⟩ := Checked.result_map_eq_ok_iff.1 hquery
    rw [← hr]
    rfl
  | listing =>
    rw [← Except.ok.inj hquery]
    rfl
  | elementAt =>
    obtain ⟨line, column, _, _, hr⟩ := read_elementAt_eq_ok_iff.1 hquery
    rw [← hr]
    rfl

end Service

end MarkupOutline
