import WorkspaceAudit.Display.Styled
import WorkspaceAudit.Files.Fault

/-!
# The terminal

A page is shown item by item. Each item is made right before it is handed to the terminal, and the
terminal reads the markup in it and may refuse it. What is on the screen by then stays there.

- `Terminal`: what the program knows of a terminal, namely which items it refuses;
- `Terminal.display`: what comes of a page;
- `Terminal.ReadsMarkup`: what is expected of a terminal.
-/

namespace WorkspaceAudit

/-- The items of a page in order, each of which may turn out to be one that cannot be made. -/
abbrev Page := List (Except Fault Printed)

/-- The page of items that have been made. -/
def Page.of (items : List Printed) : Page := items.map .ok

/-- What is on the screen after a page, and what ended the page early. -/
@[ext]
structure Screen where
  items : List Printed
  fault : Option Fault
  deriving Repr, DecidableEq

/-- A terminal shows an item or refuses it. -/
structure Terminal where
  /-- What the terminal says about an item that it does not show. -/
  refusal? : Printed → Option String

namespace Terminal

/-- The terminal that shows all items. -/
def lenient : Terminal where
  refusal? _ := none

/-- Shows a page up to the first item that cannot be made or is refused. -/
def display (t : Terminal) : Page → Screen
  | [] => ⟨[], none⟩
  | .error fault :: _ => ⟨[], some fault⟩
  | .ok item :: more =>
    match t.refusal? item with
    | some message => ⟨[], some (.refused message)⟩
    | none =>
      let rest := t.display more
      ⟨item :: rest.items, rest.fault⟩

end Terminal

/-! ## Markup

A tag `[style]` opens a style and a tag `[/style]` or `[/]` closes one. A tag that closes what has
not been opened is an error.
-/

namespace Markup

/-- A tag that closes a style begins somewhere in the text. -/
def closes : List Char → Bool
  | [] => false
  | c :: rest => c == '[' && rest.head? == some '/' || closes rest

/-- The text has no tag that closes a style. -/
def IsTidy (s : String) : Prop := closes s.toList = false

instance (s : String) : Decidable (IsTidy s) := inferInstanceAs (Decidable (_ = _))

/-- The styles of lines. -/
def styles : List String := ["bold", "dim", "green", "bold red", "bold white on red"]

/-- A line in a style, which is closed by its name. -/
def framed (style text : String) : String := "[" ++ style ++ "]" ++ text ++ "[/" ++ style ++ "]"

/-- A line in a style, which is closed as the last one that has been opened. -/
def marked (style text : String) : String := "[" ++ style ++ "]" ++ text ++ "[/]"

/-- A line closes no style but its own. -/
inductive LineTidy : String → Prop where
  | plain {s : String} (tidy : IsTidy s) : LineTidy s
  | framed {style text : String} (known : style ∈ styles) (tidy : IsTidy text) :
    LineTidy (framed style text)
  | marked {style text : String} (known : style ∈ styles) (tagless : '[' ∉ text.toList) :
    LineTidy (marked style text)

end Markup

/-- The texts of a table whose markup is read. -/
def Table.texts (t : Table) : List String :=
  t.title.toList ++ t.columns ++ t.rows.flatten.filterMap Cell.text?

/-- The markup in an item closes only what it has opened. A styled text has no markup. -/
def Printed.Tidy : Printed → Prop
  | .markup s => Markup.LineTidy s
  | .table t => ∀ s ∈ t.texts, Markup.IsTidy s
  | _ => True

/-- **The terminal reads markup**: it shows every item in which nothing is closed that has not been
opened. -/
def Terminal.ReadsMarkup (t : Terminal) : Prop :=
  ∀ item : Printed, item.Tidy → t.refusal? item = none

theorem Terminal.readsMarkup_lenient : lenient.ReadsMarkup := fun _ _ => rfl

end WorkspaceAudit
