import MarkupOutline.Name

/-!
# Definition blocks

Some tags hold definitions, such as resources, styles and templates, and show nothing themselves.
They and all they contain are left out of the element tree.
-/

namespace MarkupOutline

/-- The tags that open a definition block. -/
def definitionTags : List String :=
  ["RowDefinitions", "RowDefinition", "ColumnDefinitions", "ColumnDefinition",
   "Resources", "ResourceDictionary", "ResourceInclude", "MergedDictionaries", "ThemeDictionaries",
   "Styles", "Style", "StyleInclude", "ControlTheme",
   "Template", "ControlTemplate", "DataTemplate", "DataTemplates", "ItemsPanelTemplate",
   "TreeDataTemplate", "FocusAdornerTemplate",
   "Setter", "Trigger", "DataTrigger", "EventTrigger", "MultiTrigger"]

/-- Whether a tag opens a definition block. A property element does so by its member, also by one
that ends in `Template`. -/
def isDefinitionTag (tag : String) : Bool :=
  definitionTags.contains (Name.member tag) ||
    Name.isDotted tag && "Template".toList.isSuffixOf (Name.member tag).toList

end MarkupOutline
