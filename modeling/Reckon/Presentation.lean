import Reckon.Comparison
import Reckon.Tree.Record

/-!
# Reports as JSON

The JSON forms of tokens, steps, reports, failures, comparisons and batches.
-/

set_option autoImplicit false

namespace Reckon

def Token.toJson (token : Token) : Json :=
  .object [("kind", .text token.kind.name), ("text", .text token.text),
    ("position", .integer token.position)]

def textsToJson (texts : List Text) : Json :=
  .list (texts.map .text)

def optionalText (text? : Option Text) : Json :=
  (text?.map Json.text).getD .null

def optionalReal (value? : Option Double) : Json :=
  (value?.map Json.real).getD .null

def Step.toJson (step : Step) : Json :=
  .object [("index", .integer step.index), ("action", .text step.action.name),
    ("stack", textsToJson step.stack), ("remaining", textsToJson step.remaining),
    ("rule", optionalText step.rule), ("description", .text step.description)]

/-- A report as JSON, with its parsing steps in a form of their own. -/
def Report.toJsonWith (report : Report) (parsingSteps : Json) : Json :=
  .object [("expression", .text report.expression), ("strategy", .text report.strategy.name),
    ("tokens", .list (report.tokens.map Token.toJson)), ("parse_tree", .text report.parseTree),
    ("ast", report.tree.toJson), ("result", .real report.result),
    ("parsing_steps", parsingSteps), ("evaluation_steps", textsToJson report.evaluationSteps)]

def Report.toJson (report : Report) : Json :=
  report.toJsonWith (.list (report.parsingSteps.map Step.toJson))

def Diagnosis.toJson (diagnosis : Diagnosis) : Json :=
  .object [("category", .text diagnosis.category.name), ("message", .text diagnosis.message),
    ("position", .integer diagnosis.position)]

def Failure.toJson (failure : Failure) : Json :=
  .object [("category", .text failure.category.name), ("message", .text failure.message),
    ("position", .integer failure.position), ("formatted", .text failure.formatted)]

def Comparison.toJson (comparison : Comparison) : Json :=
  .object [("expression", .text comparison.expression), ("ast_equal", .boolean comparison.sameTree),
    ("results_equal", .boolean comparison.sameResult),
    ("top_down_result", optionalReal comparison.topDownResult),
    ("bottom_up_result", optionalReal comparison.bottomUpResult),
    ("top_down_steps", .integer comparison.topDownSteps),
    ("bottom_up_steps", .integer comparison.bottomUpSteps),
    ("errors", .object (comparison.failures.map fun failure => (failure.1, failure.2.toJson)))]

def Batch.toJson (batch : Batch) (averages : Averages) : Json :=
  .object [("total", .integer batch.total),
    ("agreement_rate", .real (batch.agreementRate averages)),
    ("error_rate", .real (batch.errorRate averages)),
    ("mean_steps",
      .object (Strategy.all.map fun strategy =>
        (strategy.name, .real (batch.meanStepsOf averages strategy)))),
    ("disagreements", .list (batch.disagreements.map Comparison.toJson)),
    ("rows", .list (batch.rows.map Comparison.toJson))]

end Reckon
