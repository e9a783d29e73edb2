import StructLayout.Output.Listing
import StructLayout.Output.Plain

/-!
# Choosing an output format

A report is written in one of four formats, chosen by name.  `Format.write` gives the text of the
report, and `Format.printed` what a program prints for it: the formats for programs end their text
with a line break, unless it is a list of names and there are none.
-/

namespace StructLayout.Output

inductive Format where
  | listing
  | document
  | annotations
  | names
deriving DecidableEq, Repr, Inhabited

namespace Format

def name : Format → String
  | listing => "rich"
  | document => "json"
  | annotations => "github"
  | names => "quiet"

def all : List Format := [listing, document, annotations, names]

def ofName? (s : String) : Option Format := all.find? fun f => f.name = s

def write (f : Format) (printer : Printer) (request : Request) (report : Report) : Outcome String :=
  match f with
  | listing => (Output.listing printer request report).text printer
  | document => Outcome.ofFault (Output.document request report)
  | annotations => Outcome.ofFault (Output.annotations request report)
  | names => .ok (Output.names request report)

def printed (f : Format) (text : String) : String :=
  match f with
  | listing => text
  | names => if text.isEmpty then "" else text ++ "\n"
  | _ => text ++ "\n"

/-- What is on the page after a report was printed in a format, and why printing stopped early if it
did; only a listing is printed piece by piece. -/
def shown (f : Format) (printer : Printer) (request : Request) (report : Report) :
    String × Option Failure :=
  match f with
  | listing => (Output.listing printer request report).shown printer
  | f =>
    match f.write printer request report with
    | .ok text => (f.printed text, none)
    | .error e => ("", some e)

end Format

end StructLayout.Output
