import MarkupOutline.Text.Case
import MarkupOutline.Text.Search

/-!
# Kinds of element

The coarse category of an element, which an outline shows as an icon. A tag belongs to the first
kind of the table one of whose words occurs in it, whatever the case of the letters.
-/

namespace MarkupOutline

/-- The coarse category of an element. -/
inductive Kind where
  | window
  | panel
  | control
  | text
  | collection
  | media
  | other
deriving DecidableEq, Repr, Inhabited

namespace Kind

/-- The name under which a kind is written. -/
def name : Kind → String
  | window => "class"
  | panel => "package"
  | control => "function"
  | text => "string"
  | collection => "array"
  | media => "file"
  | other => "object"

/-- All kinds. -/
def all : List Kind :=
  [window, panel, control, text, collection, media, other]

/-- The kind written under a name. -/
def ofName? (s : String) : Option Kind :=
  all.find? (·.name == s)

theorem ofName?_name (k : Kind) : ofName? k.name = some k := by
  cases k <;> decide

/-- The words by which a tag is recognised, the first kind first. -/
def words : List (Kind × List String) :=
  [(window, ["window", "usercontrol"]),
   (panel, ["grid", "stackpanel", "canvas", "dockpanel", "wrappanel", "border"]),
   (control, ["button", "checkbox", "radiobutton", "slider"]),
   (text, ["textblock", "textbox", "label"]),
   (collection, ["listbox", "combobox", "datagrid", "treeview"]),
   (media, ["image", "mediaelement"])]

/-- The kind of an element with the given tag. -/
def ofTag (tag : String) : Kind :=
  let lowered := Text.lower tag.toList
  match words.find? fun row => row.2.any fun word => Text.occursIn word.toList lowered with
  | some row => row.1
  | none => other

end Kind

end MarkupOutline
