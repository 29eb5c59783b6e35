import Conductor.Json.Printer

/-!
# The outline of a decision

The form of a decision as it is told to the model: a schema document, printed with its keywords in
the order of importance.

* `Decision.outline` : the text.
-/

namespace Conductor

namespace Decision

open Json

/-- The schema of a word. -/
def wordSchema (word : String) : Json :=
  .object [("type", .string "string"), ("enum", .strings [word])]

/-- The schema of a text. -/
def textSchema : Json := .object [("type", .string "string")]

/-- The schema of a list of texts. -/
def textsSchema : Json := .object [("type", .string "array"), ("items", textSchema)]

/-- The outline of one variant; its fields stand in the order of their names. -/
def variantOutline (description action : String) (fields : List (String × Json)) : Json :=
  let properties := Keyed.ofList (("action", wordSchema action) :: fields)
  .object
    [("description", .string description),
      ("type", .string "object"),
      ("required", .strings properties.keys),
      ("properties", .ofKeyed properties)]

/-- The outline of a decision as a document. -/
def outlineDocument : Json :=
  .object
    [("$schema", .string "http://json-schema.org/draft-07/schema#"),
      ("title", .string "DecisionFormat"),
      ("description", .string
        "决策输出格式：与 Planner 解析的 `\x7b\"action\": \"...\", ...\x7d` 一致（仅用于 Schema 生成）"),
      ("oneOf", .array
        [variantOutline "调用一个工具" "call_tool"
            [("args", .object
                [("description", .string "工具参数"), ("type", .string "object"),
                  ("additionalProperties", .bool true)]),
              ("name", .object
                [("description", .string "工具 id，必须来自 Available tools"),
                  ("type", .string "string")])],
          variantOutline "缺少必要信息，向用户提问" "ask_user"
            [("missing_fields", textsSchema), ("question", textSchema)],
          variantOutline "重新拆分子目标" "replan" [("subgoals", textsSchema)],
          variantOutline "结束；目标达成时 reason 中包含 \"achieved\"" "stop"
            [("reason", textSchema)]])]

/-- The outline of a decision. -/
def outline : String := outlineDocument.pretty

end Decision

end Conductor
