import Atelier.Reference.Catalog

/-!
# The reference as Markdown

A heading for each section, and for each entry a smaller heading, its line where wanted, and its
signature.
-/

namespace Atelier.Reference

/-- What the reference is to show. -/
structure Page where
  sections : List (Section × List TypeDoc)
  summaries : Bool

namespace Page

/-- The whole catalog without the lines about its entries. -/
def full : Page :=
  ⟨catalog, false⟩

def withSummaries (p : Page) (summaries : Bool) : Page :=
  { p with summaries }

/-- The same page without all sections but one. -/
def only (p : Page) (kept : Section) : Page :=
  { p with sections := p.sections.filter fun s => s.1 = kept }

def renderEntry (summaries : Bool) (d : TypeDoc) : String :=
  "### " ++ d.name ++ "\n" ++ (if summaries then d.summary ++ "\n\n" else "") ++
    "\x60" ++ d.signature ++ "\x60\n"

def renderSection (summaries : Bool) (s : Section × List TypeDoc) : String :=
  "\n## " ++ s.1.title ++ "\n" ++ String.join (s.2.map (renderEntry summaries))

def render (p : Page) : String :=
  String.join (p.sections.map (renderSection p.summaries))

end Page

end Atelier.Reference
