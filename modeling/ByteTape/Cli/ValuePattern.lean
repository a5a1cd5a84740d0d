import ByteTape.Cli.ValuePattern.Reader

/-!
# Value patterns

A log directive may ask that a field has a value of some form. The form is a number, or a regular
expression with groups, alternatives, repetition and bracketed classes; here it only matters which
texts are such patterns, since no line of this program is ever held against one.
-/

namespace ByteTape

namespace Cli

namespace ValuePattern

/-- Whether a text is a regular expression that can be used. -/
def isExpression (text : List Char) : Bool := (expression? text).any Expression.isAllowed

/-- Whether a text is the exponent of a number, or nothing. -/
def isExponent : List Char → Bool
  | [] => true
  | c :: rest =>
      let digits := match rest with
        | '+' :: rest => rest
        | '-' :: rest => rest
        | _ => rest
      (c == 'e' || c == 'E') && !digits.isEmpty && digits.all Char.isDigit

/-- Whether a text is a decimal number without a sign, or the name of a number that is not
finite. -/
def isUnsigned (text : List Char) : Bool :=
  ["inf", "infinity", "nan"].contains (String.ofList (text.map Char.toLower)) ||
    match text.span Char.isDigit with
    | (whole, '.' :: rest) =>
        match rest.span Char.isDigit with
        | (part, exponent) => !(whole.isEmpty && part.isEmpty) && isExponent exponent
    | (whole, exponent) => !whole.isEmpty && isExponent exponent

/-- Whether a text is a value pattern. Of the numbers only those with a plus sign are no regular
expressions. -/
def isWellFormed (text : List Char) : Bool :=
  isExpression text ||
    match text with
    | '+' :: number => isUnsigned number
    | _ => false

end ValuePattern

end Cli

end ByteTape
