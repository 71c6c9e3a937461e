/-!
# Markup

Elements of marked-up text: a name, attributes in double quotes, and a content. Characters that
would end an attribute or start an element are written as references.
-/

namespace FleetTelemetry.Text

def markupChar : Char → List Char
  | '&' => "&amp;".toList
  | '<' => "&lt;".toList
  | '>' => "&gt;".toList
  | '"' => "&quot;".toList
  | c => [c]

def markupText (text : String) : String :=
  String.ofList (text.toList.flatMap markupChar)

def markupOpening (name : String) (attributes : List (String × String)) : String :=
  "<" ++ name ++
    String.join (attributes.map fun item =>
      " " ++ item.1 ++ "=\"" ++ markupText item.2 ++ "\"")

def markupEmpty (name : String) (attributes : List (String × String)) : String :=
  markupOpening name attributes ++ "/>\n"

def markupElement (name : String) (attributes : List (String × String)) (content : String) :
    String :=
  markupOpening name attributes ++ ">" ++ content ++ "</" ++ name ++ ">\n"

end FleetTelemetry.Text
