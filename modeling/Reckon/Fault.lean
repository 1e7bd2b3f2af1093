import Reckon.Text.Quoted

/-!
# Faults

What can stop a run, as causes. Three stages report what is wrong with a source: the lexer, the
parsers and the evaluator; such a fault has a *diagnosis* with a category, a message and a position.
The other faults lie outside the language: a numeral that cannot be read, an access outside a list,
calls nested too deeply, and a strategy nobody knows.
-/

set_option autoImplicit false

namespace Reckon

inductive TokenKind where
  | number
  | operator
  | leftParenthesis
  | rightParenthesis
  | endOfInput
deriving DecidableEq, Repr

def TokenKind.name : TokenKind → String
  | .number => "NUMBER"
  | .operator => "OPERATOR"
  | .leftParenthesis => "LPAREN"
  | .rightParenthesis => "RPAREN"
  | .endOfInput => "EOF"

def TokenKind.all : List TokenKind :=
  [.number, .operator, .leftParenthesis, .rightParenthesis, .endOfInput]

def TokenKind.ofName? (name : String) : Option TokenKind :=
  TokenKind.all.find? fun kind => kind.name == name

inductive Category where
  | tokenizer
  | parser
  | evaluator
deriving DecidableEq, Repr

def Category.name : Category → String
  | .tokenizer => "TOKENIZER"
  | .parser => "PARSER"
  | .evaluator => "EVALUATOR"

inductive LexicalCause where
  | emptySource
  | secondPoint
  | finalPoint (numeral : Text)
  | strangeCharacter (glyph : Glyph)
  | noTokens
deriving DecidableEq

def LexicalCause.message : LexicalCause → Text
  | .emptySource => "Empty expression"
  | .secondPoint => "Invalid number format: multiple decimal points"
  | .finalPoint numeral => "Invalid number format: '" ++ numeral ++ "'"
  | .strangeCharacter glyph => "Invalid character '" ++ ⟨[glyph]⟩ ++ "'"
  | .noTokens => "No valid tokens found"

inductive SyntaxCause where
  | emptySource
  | misplacedEnd
  | tooDeep
  | unboundedNumeral (numeral : Text)
  | notAnExpression (found : Text)
  | endsTooSoon
  | capReached
  | wrongKind (wanted found : TokenKind)
  | missingOperand
  | strayToken (kind : TokenKind) (text : Text)
  | trailingToken (kind : TokenKind) (text : Text)
deriving DecidableEq

def SyntaxCause.message : SyntaxCause → Text
  | .emptySource => "Empty expression"
  | .misplacedEnd => "Token stream must end with exactly one end-of-input token"
  | .tooDeep => "Expression nested too deeply"
  | .unboundedNumeral numeral => "Invalid number: '" ++ numeral ++ "'"
  | .notAnExpression found => "Expected expression, got '" ++ found ++ "'"
  | .endsTooSoon => "Syntax error: unexpected end of expression"
  | .capReached => "Parser error: maximum iterations exceeded"
  | .wrongKind wanted found => "Expected " ++ wanted.name ++ ", got " ++ found.name
  | .missingOperand => "Unexpected end of expression"
  | .strayToken kind text => "Unexpected token: " ++ kind.name ++ " '" ++ text ++ "'"
  | .trailingToken kind text => "Unexpected token at end: " ++ kind.name ++ " '" ++ text ++ "'"

inductive EvaluationCause where
  | unboundedLeaf (shown : String)
  | unknownSign (operator : Text)
  | unknownOperator (operator : Text)
  | unboundedOperand
  | zeroDivisor
  | overflow (operation : String)
  | strangeNode (typeName : String)
  | tooDeep
deriving DecidableEq

def EvaluationCause.message : EvaluationCause → Text
  | .unboundedLeaf shown => "Invalid number value: " ++ shown
  | .unknownSign operator => "Unknown unary operator: " ++ operator
  | .unknownOperator operator => "Unknown binary operator: " ++ operator
  | .unboundedOperand => "Invalid operand values"
  | .zeroDivisor => "Division by zero"
  | .overflow operation => operation ++ " result overflow"
  | .strangeNode typeName => "Unknown node type: " ++ typeName
  | .tooDeep => "Expression nested too deeply"

inductive Fault where
  | lexical (cause : LexicalCause) (position : Int)
  | syntactic (cause : SyntaxCause) (position : Int)
  | evaluation (cause : EvaluationCause)
  | unreadableNumeral (text : Text)
  | outOfRange
  | callDepth
  | unknownStrategy (name : Text)
deriving DecidableEq

/-- The position of faults that point at no character. -/
def noPosition : Int := -1

structure Diagnosis where
  category : Category
  message : Text
  position : Int
deriving DecidableEq

/-- The report of a stage, for the faults that are about a source. -/
def Fault.diagnosis? : Fault → Option Diagnosis
  | .lexical cause position => some ⟨.tokenizer, cause.message, position⟩
  | .syntactic cause position => some ⟨.parser, cause.message, position⟩
  | .evaluation cause => some ⟨.evaluator, cause.message, noPosition⟩
  | _ => none

def Fault.message : Fault → Text
  | .lexical cause _ => cause.message
  | .syntactic cause _ => cause.message
  | .evaluation cause => cause.message
  | .unreadableNumeral text => "could not convert string to float: " ++ Text.quoted text
  | .outOfRange => "list index out of range"
  | .callDepth => "calls nested too deeply"
  | .unknownStrategy name =>
    "unknown parsing strategy: " ++ Text.quoted name ++ " (expected one of top-down, bottom-up)"

/-- A diagnosis on one line, under the name of its kind. -/
def Diagnosis.literal (diagnosis : Diagnosis) (kind : String) : String :=
  kind ++ "(" ++ Text.quoted diagnosis.message ++ ", position=" ++ toString diagnosis.position
    ++ ")"

/-- What stands before the expression when a diagnosis is shown. -/
def expressionLabel : String := "Expression: "

/-- The diagnosis above its expression, with a caret under the character it points at when that
character exists. -/
def Diagnosis.shown (diagnosis : Diagnosis) (expression : Text) : Text :=
  let heading : List Text :=
    [diagnosis.category.name ++ " ERROR: " ++ diagnosis.message, "", expressionLabel ++ expression]
  let caret : List Text :=
    if 0 ≤ diagnosis.position ∧ diagnosis.position < expression.length then
      let indent := expressionLabel.length + diagnosis.position.toNat
      [String.ofList (List.replicate indent ' ' ++ ['^'])]
    else []
  Text.intercalate "\n" (heading ++ caret)

end Reckon
