/-! Line ends. A carriage return ends a line, alone or together with the newline that follows it. -/

namespace SolidityLint.Text

/-- Writes every line end as a newline; `done` is the text so far, backwards. -/
def unifyNewlinesFrom (done : List Char) : List Char → List Char
  | [] => done.reverse
  | '\r' :: '\n' :: rest => unifyNewlinesFrom ('\n' :: done) rest
  | '\r' :: rest => unifyNewlinesFrom ('\n' :: done) rest
  | c :: rest => unifyNewlinesFrom (c :: done) rest

/-- The text with every line end written as a newline. -/
def unifyNewlines (cs : List Char) : List Char :=
  unifyNewlinesFrom [] cs

end SolidityLint.Text
