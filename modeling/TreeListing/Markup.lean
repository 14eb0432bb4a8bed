import TreeListing.Record

/-!
# Listings as HTML

A listing is an unordered list with an item per record. The item carries the id and the span as
data attributes, and the three parts of the line as escaped text. The five characters that mean
something in markup or in a quoted attribute are escaped as entities. Each is replaced in a pass of
its own over the whole text; the ampersand comes first, so that no pass touches an entity that an
earlier one has written.
-/

namespace TreeListing

namespace Markup

def replace (c : Char) (replacement : String) (text : List Char) : List Char :=
  text.flatMap fun x => if x = c then replacement.toList else [x]

/-- The characters that are escaped, in the order of the passes, with their entities. -/
def entities : List (Char × String) :=
  [('&', "&amp;"), ('<', "&lt;"), ('>', "&gt;"), ('"', "&quot;"), ('\'', "&#039;")]

def escapeChars (text : List Char) : List Char :=
  entities.foldl (fun text (c, entity) => replace c entity text) text

def escape (text : String) : String :=
  String.ofList (escapeChars text.toList)

end Markup

namespace Record

def htmlPosition (p : Position) : String :=
  toString p.row ++ ":" ++ toString p.column

def htmlSpan (className text : String) : String :=
  "<span class=\"" ++ className ++ "\">" ++ Markup.escape text ++ "</span>"

def htmlItem (r : Record) : String :=
  "  <li data-id=\"" ++ toString r.id ++ "\" data-start=\"" ++ htmlPosition r.start ++
    "\" data-end=\"" ++ htmlPosition r.stop ++ "\">" ++ htmlSpan "prefix" r.lead ++
    htmlSpan "name" r.name ++ htmlSpan "span" r.suffix ++ "</li>\n"

def htmlList (records : List Record) : String :=
  "<ul class=\"syntax-tree\">\n" ++ String.join (records.map htmlItem) ++ "</ul>\n"

end Record

end TreeListing
