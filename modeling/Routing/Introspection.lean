import Routing.Api
import Routing.Text.Html

/-!
# The page of an API

An HTML page with a row for each route of an API: template, method, description, examples and
status codes. Declared texts are escaped.
-/

namespace Routing.Introspection

/-- The style of the page. -/
def style : String :=
  "  <style type=\"text/css\">\n"
    ++ "body \x7b width:100%; padding:0; margin:0; \x7d\n"
    ++ ".methods \x7b border: 1px solid black; border-collapse: collapse; width:100%; \x7d\n"
    ++ ".methods th, .methods td \x7b padding: 0.5em; \x7d\n"
    ++ "td.code \x7b font-family: monospace; max-width: 60em; padding: 0; \x7d\n"
    ++ ".code > pre \x7b overflow-x:auto; text-overflow: ellipsis; padding: 0.5em; margin:0; \x7d\n"
    ++ "  </style>\n"

/-- The header of the table. -/
def tableHeader : String :=
  "<table border=\"1\" class=\"methods\">\n"
    ++ "  <tr><th>URI</th>\n"
    ++ "      <th>Method</th>\n"
    ++ "      <th>Description</th>\n"
    ++ "      <th width=\"35%\">Input</th>\n"
    ++ "      <th width=\"35%\">Output</th>\n"
    ++ "      <th>Status codes</th>\n"
    ++ "  </tr>\n"

/-- What comes before the rows. -/
def opening (version : Nat) : String :=
  "<!DOCTYPE html>\n<html>\n<head>\n  <title>Pathway API version " ++ toString version
    ++ "</title>\n" ++ style ++ "</head>\n<body>\n<h2>Pathway API version " ++ toString version
    ++ "</h2>\n" ++ tableHeader

/-- What comes after the rows. -/
def closing : String :=
  "</table>\n</body>\n</html>"

variable {σ : Type}

/-- The row of a route. -/
def row (version : Nat) (r : Route σ) : String :=
  "<tr><td>/api/v" ++ toString version ++ "/" ++ Text.Html.escape r.uri ++ "</td><td>"
    ++ r.method.name ++ "</td><td>" ++ Text.Html.escape r.description
    ++ "</td><td class=\"code\"><pre>" ++ Text.Html.escape r.input.pretty
    ++ "</pre></td><td class=\"code\"><pre>" ++ Text.Html.escape r.output.pretty
    ++ "</pre></td><td>" ++ Text.Html.escape r.statuses ++ "</td></tr>\n"

/-- The rows of routes. -/
def rows (version : Nat) : List (Route σ) → String
  | [] => ""
  | r :: rs => row version r ++ rows version rs

/-- The page of an API. -/
def page (a : Api σ) : String :=
  opening a.version ++ rows a.version a.routes ++ closing

end Routing.Introspection
