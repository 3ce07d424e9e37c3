/-!
# Reading events

A document is read as a sequence of events: text, references, tags, and markup
of other kinds. Reading stops at the first thing that is malformed. Only the
outline is checked: where each piece of markup ends, and that tags match.
-/

namespace ApiModel.Xml

/-- What can be malformed. -/
inductive Fault where
  | tagNotClosed
  | valueNotClosed (quote : Char)
  | unknownMarkup
  | commentNotClosed
  | cdataNotClosed
  | doctypeNotClosed
  | instructionNotClosed
  | declarationNotClosed
  | referenceNotClosed
  | missingDoctypeName
  | unmatchedEnd (name : List Char)
  | mismatchedEnd (expected found : List Char)
deriving DecidableEq, Repr

namespace Fault

def notClosed (what ending : String) : String :=
  s!"{what} not closed: `{ending}` not found before end of input"

/-- Faults in the outline of the document, as `mismatchedEnd`, as opposed to those of one piece of
markup. -/
def isIllFormed : Fault → Bool
  | referenceNotClosed | missingDoctypeName | unmatchedEnd _ | mismatchedEnd _ _ => true
  | _ => false

def cause : Fault → String
  | tagNotClosed => notClosed "tag" ">"
  | valueNotClosed quote => notClosed "attribute value" (String.singleton quote)
  | unknownMarkup => "unknown or missed symbol in markup"
  | commentNotClosed => notClosed "comment" "-->"
  | cdataNotClosed => notClosed "CDATA" "]]>"
  | doctypeNotClosed => notClosed "DOCTYPE" ">"
  | instructionNotClosed => notClosed "processing instruction" "?>"
  | declarationNotClosed => notClosed "XML declaration" "?>"
  | referenceNotClosed => notClosed "entity or character reference" ";"
  | missingDoctypeName => "`<!DOCTYPE>` declaration does not contain a name of a document type"
  | unmatchedEnd name => s!"close tag `</{String.ofList name}>` does not match any open tag"
  | mismatchedEnd expected found =>
    s!"expected `</{String.ofList expected}>`, but `</{String.ofList found}>` was found"

def message (f : Fault) : String :=
  (if f.isIllFormed then "ill-formed document: " else "syntax error: ") ++ f.cause

end Fault

/-- A piece of a document. Tags are divided into their `name` and what follows it. -/
inductive Event where
  | text (content : List Char)
  | reference (content : List Char)
  | start (name attributes : List Char)
  | empty (name attributes : List Char)
  | stop (name : List Char)
  | instruction (content : List Char)
  | comment (content : List Char)
  | cdata (content : List Char)
  | doctype (content : List Char)
deriving DecidableEq, Repr

/-! ## Finding the end -/

def isSpace (c : Char) : Bool :=
  c = ' ' || c = '\t' || c = '\r' || c = '\n'

def isQuote (c : Char) : Bool :=
  c = '"' || c = '\x27'

/-- What stands before and after the first occurrence of `mark`. -/
def splitFirst? (mark : List Char) : List Char → Option (List Char × List Char)
  | [] => if mark = [] then some ([], []) else none
  | c :: cs =>
    match mark.isPrefixOf? (c :: cs) with
    | some rest => some ([], rest)
    | none => (splitFirst? mark cs).map fun (before, after) => (c :: before, after)

/-- The quotation mark that is open after `c`. -/
def nextQuote (c : Char) : Option Char → Option Char
  | some q => if c = q then none else some q
  | none => if isQuote c then some c else none

/-- What stands before and after the first `>` outside quotation marks. -/
def splitTag (quote : Option Char) : List Char → Except Fault (List Char × List Char)
  | [] => .error (quote.elim .tagNotClosed .valueNotClosed)
  | c :: cs =>
    if c = '>' && quote.isNone then .ok ([], cs)
    else (splitTag (nextQuote c quote) cs).map fun (before, after) => (c :: before, after)

/-! ## Document type declarations -/

/-- Where the reading of a document type declaration stands, see `splitDoctype?`. -/
inductive DoctypeState where
  /-- Before the internal subset, maybe inside a quotation that ends at `quote`. -/
  | outside (quote : Option Char)
  /-- In the internal subset, between its declarations. -/
  | subset
  /-- In a declaration of the subset that ends at the first `>`. -/
  | declaration
  /-- In a declaration of the subset that may hold quotations; `quote` is open. -/
  | quoting (quote : Option Char)
  /-- In a comment or an instruction, which ends at `mark`. -/
  | until (mark : List Char)
  /-- After the internal subset. -/
  | closing
deriving DecidableEq, Repr

/-- The declaration that starts with the text `cs` after its `<`, and the length of the keyword it
is known by. -/
def declarationKind (cs : List Char) : DoctypeState × Nat :=
  if "!--".toList.isPrefixOf cs then (.until "-->".toList, 3)
  else if "?".toList.isPrefixOf cs then (.until "?>".toList, 1)
  else if "!ENTITY".toList.isPrefixOf cs then (.quoting none, 7)
  else if "!ATTLIST".toList.isPrefixOf cs then (.quoting none, 8)
  else if "!NOTATION".toList.isPrefixOf cs then (.quoting none, 9)
  else (.declaration, 0)

/-- What stands before and after the `>` that ends a document type declaration; `skip` counts
characters that have already been looked at. -/
def splitDoctype? (state : DoctypeState) (skip : Nat) :
    List Char → Option (List Char × List Char)
  | [] => none
  | c :: cs =>
    let go := fun state skip =>
      (splitDoctype? state skip cs).map fun (before, after) => (c :: before, after)
    match skip with
    | skip + 1 => go state skip
    | 0 =>
      match state with
      | .outside quote =>
        if quote.isNone && c = '>' then some ([], cs)
        else if quote.isNone && c = '[' then go .subset 0
        else go (.outside (nextQuote c quote)) 0
      | .subset =>
        if c = ']' then go .closing 0
        else if c = '<' then go (declarationKind cs).1 (declarationKind cs).2
        else go .subset 0
      | .declaration => go (if c = '>' then .subset else .declaration) 0
      | .quoting quote =>
        if quote.isNone && c = '>' then go .subset 0 else go (.quoting (nextQuote c quote)) 0
      | .until mark =>
        if mark.isPrefixOf (c :: cs) then go .subset (mark.length - 1) else go (.until mark) 0
      | .closing => if c = '>' then some ([], cs) else go .closing 0

/-! ## Markup -/

/-- An `Event` and what follows it. -/
abbrev Reading := Except Fault (Event × List Char)

/-- Divides the `content` of a tag into its name and what follows. -/
def splitName (content : List Char) : List Char × List Char :=
  content.span (!isSpace ·)

def readStart (cs : List Char) : Reading := do
  let (content, rest) ← splitTag none cs
  match content.getLast? with
  | some '/' =>
    let (name, attributes) := splitName content.dropLast
    return (.empty name attributes, rest)
  | _ =>
    let (name, attributes) := splitName content
    return (.start name attributes, rest)

/-- The `content` of an end tag without the spaces after the name; where there is nothing but
spaces, they are the name. -/
def stopName (content : List Char) : List Char :=
  match content.reverse.dropWhile isSpace with
  | [] => content
  | reversed => reversed.reverse

def readStop (cs : List Char) : Reading := do
  let (content, rest) ← splitTag none cs
  return (.stop (stopName content), rest)

/-- The text `cs` begins an XML declaration. -/
def startsDeclaration (cs : List Char) : Bool :=
  match "xml".toList.isPrefixOf? cs with
  | none => false
  | some [] => true
  | some (c :: _) => isSpace c || c = '?'

def readInstruction (cs : List Char) : Reading :=
  match splitFirst? "?>".toList ('?' :: cs) with
  | some (_ :: content, rest) => .ok (.instruction content, rest)
  | some ([], _) => .error .instructionNotClosed
  | none =>
    .error (if startsDeclaration cs then .declarationNotClosed else .instructionNotClosed)

def readComment : List Char → Reading
  | '-' :: cs =>
    match splitFirst? "-->".toList cs with
    | some (content, rest) => .ok (.comment content, rest)
    | none => .error .commentNotClosed
  | _ => .error .commentNotClosed

def readCdata (cs : List Char) : Reading :=
  match ("CDATA[".toList.isPrefixOf? cs).bind (splitFirst? "]]>".toList) with
  | some (content, rest) => .ok (.cdata content, rest)
  | none => .error .cdataNotClosed

/-- Markup after `<!` that begins with `doctype`, which may be written in any case. -/
def readDoctype (cs : List Char) : Reading :=
  if (cs.take 7).map Char.toUpper ≠ "DOCTYPE".toList then .error .doctypeNotClosed
  else
    match splitDoctype? (.outside none) 0 (cs.drop 7) with
    | none => .error .doctypeNotClosed
    | some (content, rest) =>
      if content.all isSpace then .error .missingDoctypeName else .ok (.doctype content, rest)

/-- Markup after `<!`. -/
def readBang : List Char → Reading
  | '-' :: cs => readComment cs
  | '[' :: cs => readCdata cs
  | c :: cs => if c = 'D' || c = 'd' then readDoctype (c :: cs) else .error .unknownMarkup
  | [] => .error .unknownMarkup

/-- Markup after `<`. -/
def readMarkup : List Char → Reading
  | [] => .error .tagNotClosed
  | '!' :: cs => readBang cs
  | '/' :: cs => readStop cs
  | '?' :: cs => readInstruction cs
  | cs => readStart cs

/-- A reference after `&`. -/
def readReference (cs : List Char) : Reading :=
  match cs.span fun c => c ≠ ';' && c ≠ '&' && c ≠ '<' with
  | (content, ';' :: rest) => .ok (.reference content, rest)
  | _ => .error .referenceNotClosed

def isText (c : Char) : Bool :=
  c ≠ '<' && c ≠ '&'

/-- The event that starts with `c`. -/
def readEvent (c : Char) (cs : List Char) : Reading :=
  if c = '<' then readMarkup cs
  else if c = '&' then readReference cs
  else .ok (.text (c :: cs.takeWhile isText), cs.dropWhile isText)

/-! ## Documents -/

/-- The names of the open elements after an event, innermost first; `opened` are those before it. -/
def nest (opened : List (List Char)) : Event → Except Fault (List (List Char))
  | .start name _ => .ok (name :: opened)
  | .stop name =>
    match opened with
    | [] => .error (.unmatchedEnd name)
    | expected :: outer =>
      if name = expected then .ok outer else .error (.mismatchedEnd expected name)
  | _ => .ok opened

/-- An `event`, with what follows it in the document. -/
structure Located where
  event : Event
  rest : List Char
deriving DecidableEq, Repr

/-- The `events` of a document up to the first `fault`. -/
structure Outline where
  events : List Located
  fault : Option Fault
deriving DecidableEq, Repr

/-- Reads on inside the elements `opened`. Each event takes up a character at least, so the
number of characters bounds that of the events. -/
def outlineFrom : (fuel : Nat) → (opened : List (List Char)) → List Char → Outline
  | 0, _, _ => ⟨[], none⟩
  | _, _, [] => ⟨[], none⟩
  | fuel + 1, opened, c :: cs =>
    let step := do
      let (event, rest) ← readEvent c cs
      let opened ← nest opened event
      return (event, opened, rest)
    match step with
    | .error fault => ⟨[], some fault⟩
    | .ok (event, opened, rest) =>
      let further := outlineFrom fuel opened rest
      ⟨⟨event, rest⟩ :: further.events, further.fault⟩

def outline (cs : List Char) : Outline :=
  outlineFrom cs.length [] cs

end ApiModel.Xml
