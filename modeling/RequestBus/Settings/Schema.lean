import RequestBus.Json.Printer
import RequestBus.Settings.Outline

/-! A description of the settings file as a JSON schema. It is made from the same fields by
which settings are read and written. The members of a schema stand in the order in which they
are given here; only named things, such as the properties of a section, are sorted. -/
namespace RequestBus.Settings

open Json (Value)

def sorted (members : List (String × Value)) : Value := .ofMembers members

def described : Option String → List (String × Value)
  | some about => [("description", .text about)]
  | none => []

/-- A number that is never more than its word holds; only a short word has a limit of its
own. -/
def Word.limits (w : Word) : List (String × Value) :=
  (if w.bits ≤ 16 then [("maximum", .nat (Nat.pow 2 w.bits - 1))] else []) ++
    [("minimum", .nat 0)]

def Slot.form (blank : σ) : Slot σ → List (String × Value)
  | .required .. => [("type", .text "string")]
  | .text get _ => [("type", .text "string"), ("default", .text (get blank))]
  | .nullable .. =>
    [("type", .list [.text "string", .text "null"]), ("default", .null)]
  | .flag get _ => [("type", .text "boolean"), ("default", .flag (get blank))]
  | .number word get _ =>
    [ ("type", .text "integer"), ("format", .text word.format),
      ("default", .nat (get blank)) ] ++ word.limits

def Outline.schema (o : Outline σ) : Value :=
  let required := (o.fields.filter Field.isRequired).map Field.name
  .object (
    described (some o.about) ++
    [ ("type", .text "object"),
      ("properties", sorted (o.fields.map fun f =>
        (f.name, .object (described f.about ++ f.slot.form o.blank)))) ] ++
    if required = [] then [] else [("required", .list (required.map .text))])

def Outline.pointer (o : Outline σ) : String × Value := ("$ref", .text ("#/$defs/" ++ o.record))

def Outline.property (o : Outline σ) (about : String) : Value :=
  .object (described (some about) ++
    [o.pointer, ("default", sorted ((o.write o.blank).map fun e => (e.1, e.2.toJson)))])

def Outline.optionalProperty (o : Outline σ) (about : String) : Value :=
  .object (described (some about) ++
    [ ("anyOf", .list [.object [o.pointer], .object [("type", .text "null")]]),
      ("default", .null) ])

def schema : Value :=
  .object
    [ ("$schema", .text "https://json-schema.org/draft/2020-12/schema"),
      ("title", .text "Config"),
      ("description", .text ("Top-level dispatcher configuration, loaded from `config.toml`.\n\n" ++
        "Resolution order: `--config-dir` → `CSE_BUS_CONFIG_DIR` env → " ++
        "`~/.cse-bus/config.toml`.")),
      ("type", .text "object"),
      ("properties", sorted
        [ (dispatchOutline.name,
            dispatchOutline.property "Worker pool and dedup registry sizing (`[dispatch]`)."),
          (reliabilityOutline.name,
            reliabilityOutline.property "Reconnect and supervisor backoff (`[reliability]`)."),
          (amqpOutline.name,
            amqpOutline.optionalProperty "AMQP transport (`[amqp]`). Omit to disable."),
          (mqttOutline.name,
            mqttOutline.optionalProperty
              "MQTT-over-WebSocket transport (`[mqtt]`). Omit to disable.") ]),
      ("$defs", sorted
        [ (dispatchOutline.record, dispatchOutline.schema),
          (reliabilityOutline.record, reliabilityOutline.schema),
          (amqpOutline.record, amqpOutline.schema),
          (mqttOutline.record, mqttOutline.schema) ]) ]

end RequestBus.Settings
