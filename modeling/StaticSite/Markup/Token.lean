import StaticSite.Markup.Reference
import StaticSite.Text.LowerCase
import StaticSite.Text.Quoted
import StaticSite.Value.Fields

/-! # Tokens of markup

Markup is read leniently: what is no complete construct is text. A construct starts at a `<` or an
`&`; each reader below looks at the text from there on and gives the tokens it makes and the number
of characters it takes, or nothing when the construct does not end.
-/

namespace StaticSite.Markup

/-- Attributes in order; a name occurs once. -/
abbrev Attributes := List (Text × Text)

/-- A piece of markup. -/
inductive Token
  | text (content : Text)
  /-- A start tag; `closed` when it ends with a slash. -/
  | start (name : Text) (attributes : Attributes) (closed : Bool)
  | finish (name : Text)
  | comment (content : Text)
  | doctype (content : Text)
  | instruction (content : Text)
  /-- A section in square brackets, with the keyword it begins with. -/
  | marked (content : Text)
  /-- A section that cannot be read at all. -/
  | rejected (reason : Text)
  deriving DecidableEq, Repr

/-- The text before the first place where an ending starts, and the number of characters up to the
end of that ending. -/
def upTo? (ending? : Text → Option Nat) : Text → Option (Text × Nat)
  | [] => none
  | c :: rest =>
      match ending? (c :: rest) with
      | some length => some ([], length)
      | none => (upTo? ending? rest).map fun (body, length) => (c :: body, length + 1)

/-- The end of a tag. -/
def tagEnd? : Text → Option Nat
  | '>' :: _ => some 1
  | _ => none

/-- The end of a tag after blanks. -/
def looseEnd? (t : Text) : Option Nat :=
  let blanks := t.takeWhile isBlank
  (tagEnd? (t.drop blanks.length)).map (· + blanks.length)

/-- The end of a comment. -/
def commentEnd? : Text → Option Nat
  | '-' :: '-' :: rest => (looseEnd? rest).map (· + 2)
  | _ => none

/-- The end of a section of conditional markup. -/
def bracketEnd? : Text → Option Nat
  | ']' :: rest => (looseEnd? rest).map (· + 1)
  | _ => none

/-- The end of a marked section. -/
def bracketsEnd? : Text → Option Nat
  | ']' :: rest =>
      let blanks := rest.takeWhile isBlank
      (bracketEnd? (rest.drop blanks.length)).map (· + (blanks.length + 1))
  | _ => none

/-! ## Start tags -/

/-- Whether a character may stand in the name of a tag. -/
def isNameChar (c : Char) : Bool :=
  !(c == '\t' || c == '\n' || c == '\r' || c == '\x0c' || c == ' ' || c == '/' || c == '>' ||
    c == '\x00')

/-- Whether a character may stand in an attribute name after its first character. -/
def isAttributeChar (c : Char) : Bool := !(isBlank c || c == '/' || c == '=' || c == '>')

/-- Whether a character may stand in a value without quotes. -/
def isBareChar (c : Char) : Bool := !(isBlank c || c == '>')

/-- Whether a character is a quote. -/
def isQuote (c : Char) : Bool := c == '\'' || c == '"'

/-- Whether an attribute may start after a character. -/
def isSeparator (c : Char) : Bool := isQuote c || isBlank c || c == '/'

/-- The length of the blanks and slashes that a text starts with; the slash that closes a tag is
not among them. -/
def gapLength : Text → Nat
  | [] => 0
  | '/' :: '>' :: _ => 0
  | c :: rest => if c == '/' || isBlank c then gapLength rest + 1 else 0

/-- The value that an attribute has after its name, and the number of characters it takes, the
equals sign included. A quote that is not closed starts no value: then the value is empty when a
blank goes before the quote, starts at the last one of several equals signs, or is not there. -/
def attributeValue (t : Text) : Text × Nat :=
  let before := t.takeWhile isBlank
  let signs := (t.drop before.length).takeWhile (· == '=')
  if signs.isEmpty then ([], 0)
  else
    let toSign := before.length + signs.length
    let after := (t.drop toSign).takeWhile isBlank
    let toValue := toSign + after.length
    let body := t.drop toValue
    match body with
    | [] => ([], toValue)
    | c :: rest =>
        if isQuote c then
          if rest.elem c then
            let value := rest.takeWhile (· != c)
            (value, toValue + value.length + 2)
          else if !after.isEmpty then ([], toValue - 1)
          else if 2 ≤ signs.length then
            let value := '=' :: body.takeWhile isBareChar
            (value, toValue - 1 + value.length)
          else ([], 0)
        else
          let value := body.takeWhile isBareChar
          (value, toValue + value.length)

/-- The attribute that a text starts with after a character, and the number of characters up to
the next attribute. -/
def attribute? (previous : Char) : Text → Option ((Text × Text) × Nat)
  | [] => none
  | c :: rest =>
      if !isSeparator previous || isBlank c || c == '/' || c == '>' then none
      else
        let name := c :: rest.takeWhile isAttributeChar
        let afterName := rest.drop (name.length - 1)
        let (value, valueLength) := attributeValue afterName
        let gap := gapLength (afterName.drop valueLength)
        some ((Text.lower name, resolve value), name.length + valueLength + gap)

/-- The attributes that a text starts with after a character, and the number of characters they
take, after `skip` characters that are already read. -/
def attributesFrom (skip : Nat) (previous : Char) : Text → Attributes × Nat
  | [] => ([], 0)
  | c :: rest =>
      if 0 < skip then
        let (found, length) := attributesFrom (skip - 1) c rest
        (found, length + 1)
      else
        match attribute? previous (c :: rest) with
        | some (first, length) =>
            let (found, more) := attributesFrom (length - 1) c rest
            (first :: found, more + 1)
        | none => ([], 0)

/-- The elements whose content is text up to their end tag. -/
def rawElements : List Text := ["script", "style"]

/-- The end tag of an element with raw content. -/
def rawEnd? (name : Text) : Text → Option Nat
  | '<' :: '/' :: rest =>
      let blanks := rest.takeWhile isBlank
      let afterBlanks := rest.drop blanks.length
      if (afterBlanks.take name.length).map Text.lowerChar = name then
        (looseEnd? (afterBlanks.drop name.length)).map (· + (2 + blanks.length + name.length))
      else none
  | _ => none

/-- The tokens of the content of an element with raw content, and their length; without an end tag
the rest of the text is lost. -/
def rawContent (name t : Text) : List Token × Nat :=
  match upTo? (rawEnd? name) t with
  | some (content, length) =>
      ((if content.isEmpty then [] else [.text content]) ++ [.finish name], length)
  | none => ([], t.length)

/-- Reads a start tag. A character that belongs to no attribute makes what stands before it
text. -/
def startTag? (t : Text) : Option (List Token × Nat) :=
  let tagName := (t.drop 1).takeWhile isNameChar
  let afterName := t.drop (1 + tagName.length)
  let gap := gapLength afterName
  let previous := ((t.take (1 + tagName.length + gap)).getLast?).getD '<'
  let (found, attributesLength) := attributesFrom 0 previous (afterName.drop gap)
  let length := 1 + tagName.length + gap + attributesLength
  let name := Text.lower tagName
  let attributes := Fields.putAll [] found
  match t.drop length with
  | [] => none
  | '>' :: rest =>
      let open_ := Token.start name attributes false
      if rawElements.elem name then
        let (content, contentLength) := rawContent name rest
        some (open_ :: content, length + 1 + contentLength)
      else some ([open_], length + 1)
  | '/' :: '>' :: _ => some ([.start name attributes true], length + 2)
  | c :: _ => if c == '=' then none else some ([.text (t.take length)], length)

/-! ## Other tags and declarations -/

/-- Whether a character may stand in the name of a plain end tag. -/
def isPlainNameChar (c : Char) : Bool :=
  isLetterOrDigit c || c == '-' || c == '.' || c == ':' || c == '_'

/-- Reads a comment without delimiters of its own: everything up to the end of the tag. -/
def looseComment? (t : Text) : Option (List Token × Nat) :=
  (upTo? tagEnd? (t.drop 2)).map fun (content, length) => ([.comment content], length + 2)

/-- The name of an end tag with nothing but blanks around it, and the length of the tag. -/
def plainEndTag? (rest : Text) : Option (Text × Nat) :=
  let blanks := rest.takeWhile isBlank
  let afterBlanks := rest.drop blanks.length
  let name := afterBlanks.takeWhile isPlainNameChar
  match name with
  | [] => none
  | c :: _ =>
      if isLetter c then
        (looseEnd? (afterBlanks.drop name.length)).map fun length =>
          (Text.lower name, 2 + blanks.length + name.length + length)
      else none

/-- Reads an end tag. What stands between the name and the end of the tag does not count, an end
tag without a name is nothing, and one with a strange name is a comment. -/
def endTag? (t : Text) : Option (List Token × Nat) :=
  let rest := t.drop 2
  if !rest.elem '>' then none
  else
    match plainEndTag? rest with
    | some (name, length) => some ([.finish name], length)
    | none =>
        match rest with
        | '>' :: _ => some ([], 3)
        | c :: _ =>
            if isLetter c then
              let name := rest.takeWhile isNameChar
              (upTo? tagEnd? (rest.drop name.length)).map fun (_, length) =>
                ([.finish (Text.lower name)], 2 + name.length + length)
            else looseComment? t
        | [] => none

/-- The keywords of marked sections. -/
def sectionKeywords : List Text := ["temp", "cdata", "ignore", "include", "rcdata"]

/-- The keywords of conditional markup. -/
def conditionKeywords : List Text := ["if", "else", "endif"]

/-- Whether a character may stand in a keyword after its first letter. -/
def isKeywordChar (c : Char) : Bool := isLetterOrDigit c || c == '-' || c == '_' || c == '.'

/-- Reads a section in square brackets. -/
def markedSection? (t : Text) : Option (List Token × Nat) :=
  let rest := t.drop 3
  match rest with
  | [] => none
  | c :: _ =>
      if !isLetter c then
        some ([.rejected ("expected name token at " ++ Text.quoted (t.take 20))], t.length)
      else
        let word := rest.takeWhile isKeywordChar
        let blanks := (rest.drop word.length).takeWhile isBlank
        let length := word.length + blanks.length
        let ends (ending? : Text → Option Nat) : Option (List Token × Nat) :=
          (upTo? ending? rest).map fun (content, n) => ([.marked content], n + 3)
        if rest.length = length then none
        else if sectionKeywords.elem (Text.lower word) then ends bracketsEnd?
        else if conditionKeywords.elem (Text.lower word) then ends bracketEnd?
        else
          some ([.rejected ("unknown status keyword " ++ Text.quoted (rest.take length) ++
            " in marked section")], t.length)

/-- Reads what starts with an exclamation mark. -/
def declaration? (t : Text) : Option (List Token × Nat) :=
  if Text.startsWith "<!--" t then
    (upTo? commentEnd? (t.drop 4)).map fun (content, length) => ([.comment content], length + 4)
  else if Text.startsWith "<![" t then markedSection? t
  else if Text.lower (t.take 9) = "<!doctype" then
    (upTo? tagEnd? (t.drop 9)).map fun (content, length) =>
      ([.doctype (content.drop 1)], length + 9)
  else looseComment? t

/-- The length of an unfinished construct, which is text: up to the next end of a tag or the next
start of one. -/
def unfinishedLength (t : Text) : Nat :=
  let rest := t.drop 1
  let toEnd := rest.takeWhile (· != '>')
  let toStart := rest.takeWhile (· != '<')
  if toEnd.length < rest.length then toEnd.length + 2
  else if toStart.length < rest.length then toStart.length + 1
  else 1

/-! ## Reading -/

/-- What a reader does at one place. -/
structure Step where
  tokens : List Token
  /-- The number of characters taken. -/
  length : Nat
  /-- Whether something unfinished has been read; from then on a number without an end makes the
  rest of the text plain. -/
  late : Bool

/-- Reads what starts with `<`. -/
def readTag (late : Bool) (t : Text) : Step :=
  let complete : Option (List Token × Nat) :=
    match t with
    | _ :: '/' :: _ => endTag? t
    | _ :: '?' :: _ =>
        (upTo? tagEnd? (t.drop 2)).map fun (content, length) =>
          ([.instruction content], length + 2)
    | _ :: '!' :: _ => declaration? t
    | _ :: c :: _ => if isLetter c then startTag? t else some ([.text ['<']], 1)
    | _ => some ([.text ['<']], 1)
  match complete with
  | some (tokens, length) => ⟨tokens, length, late⟩
  | none => ⟨[.text (t.take (unfinishedLength t))], unfinishedLength t, true⟩

/-- Reads all of a text as text. -/
def plainRest (late : Bool) (t : Text) : Step := ⟨[.text t], t.length, late⟩

/-- Reads a reference by number. -/
def readNumber (late : Bool) (t : Text) : Step :=
  let rest := t.drop 2
  let finished (length n : Nat) : Option Step :=
    match t.drop length with
    | [] => none
    | c :: _ =>
        if isHexDigit c then none
        else some ⟨[.text [numberedChar n]], length + semicolonLength (t.drop length), late⟩
  let digits := rest.takeWhile isDigit
  let hexDigits := (rest.drop 1).takeWhile isHexDigit
  let step : Option Step :=
    if !digits.isEmpty then finished (2 + digits.length) (Text.decimal digits)
    else if (rest.head? == some 'x' || rest.head? == some 'X') && !hexDigits.isEmpty then
      finished (3 + hexDigits.length) (Text.hexadecimal hexDigits)
    else none
  match step with
  | some step => step
  | none => if late || !rest.elem ';' then plainRest late t else ⟨[.text ['&', '#']], 2, true⟩

/-- Reads a reference by name. A name at the end of the text ends at its last hyphen or point. -/
def readName (late : Bool) (t : Text) : Step :=
  let rest := t.drop 1
  let run := rest.takeWhile fun c => isLetterOrDigit c || c == '-' || c == '.'
  let after := rest.drop run.length
  if !after.isEmpty then
    ⟨[.text (namedText run)], 1 + run.length + semicolonLength after, late⟩
  else
    let name := ((run.reverse.dropWhile isLetterOrDigit).drop 1).reverse
    if !name.isEmpty then ⟨[.text (namedText name)], 1 + name.length, late⟩
    else if rest.length = 1 then ⟨[.text rest], t.length, late⟩
    else plainRest late t

/-- Reads what starts at a character. -/
def readAt (late : Bool) (c : Char) (rest : Text) : Step :=
  let t := c :: rest
  if c = '<' then readTag late t
  else if c = '&' then
    match rest with
    | '#' :: _ => readNumber late t
    | d :: _ => if isLetter d then readName late t else ⟨[.text [c]], 1, late⟩
    | [] => ⟨[.text [c]], 1, late⟩
  else
    let run := t.takeWhile fun d => d != '<' && d != '&'
    ⟨[.text run], run.length, late⟩

/-- The tokens of a text, after `skip` characters that are already read. -/
def tokensFrom (late : Bool) (skip : Nat) : Text → List Token
  | [] => []
  | c :: rest =>
      if 0 < skip then tokensFrom late (skip - 1) rest
      else
        let step := readAt late c rest
        step.tokens ++ tokensFrom step.late (step.length - 1) rest

/-- The tokens of a text. -/
def tokens (t : Text) : List Token := tokensFrom false 0 t

end StaticSite.Markup
