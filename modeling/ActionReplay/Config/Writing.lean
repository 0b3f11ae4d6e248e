import ActionReplay.Config.Basic

/-!
# Writing a configuration

`Config.toJson` is the value that spells a configuration, every field written out. `Config.Schema.config`
is the JSON Schema by which other tools can check such a value before it is loaded; its members stand in
the order in which they are printed.
-/

set_option autoImplicit false
set_option relaxedAutoImplicit false

namespace ActionReplay

/-! ### The value of a configuration -/

/-- A signed word of half the width, as a number. -/
def Json.ofInt32 (n : Int32) : Json :=
  if 0 ≤ n.toInt then .number (.unsigned n.toInt.toNat.toUInt64) else .number (.signed n.toInt64)

def Bounds.toJson (b : Bounds) : Json :=
  .object [("x", .ofInt32 b.x), ("y", .ofInt32 b.y), ("width", .ofInt32 b.width),
    ("height", .ofInt32 b.height)]

def FeedConfig.toJson : FeedConfig → Json
  | .file path pollMs deleteOnSuccess =>
    .object [("type", .string "file"), ("path", .string path),
      ("poll_ms", (pollMs.map fun ms ↦ Json.number (.unsigned ms)).getD .null),
      ("delete_on_success", (deleteOnSuccess.map Json.bool).getD .null)]
  | .stdin => .object [("type", .string "stdin")]

def Config.toJson (c : Config) : Json :=
  .object [("sources", .array (c.feeds.map FeedConfig.toJson)),
    ("elements", .object (c.elements.map fun (handle, bounds) ↦ (handle, bounds.toJson))),
    ("dispatch", .object [("pacing", .bool c.pacing)])]

/-! ### The schema of configurations -/

namespace Config.Schema

/-- The dialect of JSON Schema that is written. -/
def dialect : String := "https://json-schema.org/draft/2020-12/schema"

def strings (items : List String) : Json :=
  .array (items.map .string)

def reference (name : String) : String × Json :=
  ("$ref", .string ("#/$defs/" ++ name))

/-- A description followed by a type. -/
def described (description : String) (type : Json) (rest : List (String × Json)) : Json :=
  .object (("description", .string description) :: ("type", type) :: rest)

def absent (value : Json) : String × Json :=
  ("default", value)

def properties (members : List (String × Json)) : String × Json :=
  ("properties", .object members)

def required (names : List String) : String × Json :=
  ("required", strings names)

def int32 : Json :=
  .object [("type", .string "integer"), ("format", .string "int32")]

/-- The tag that selects a feed. -/
def tag (name : String) : String × Json :=
  ("type", .object [("type", .string "string"), ("const", .string name)])

def pacing : Json :=
  described
    ("Sleep between ticks so that replay follows the requested timing\n" ++
      "(default: true). Disable to replay as fast as possible.")
    (.string "boolean") [absent (.bool true)]

def dispatch : Json :=
  described "Replay settings." (.string "object") [properties [("pacing", pacing)]]

def bounds : Json :=
  described "A rectangle region on screen." (.string "object")
    [properties [("height", int32), ("width", int32), ("x", int32), ("y", int32)],
      required ["x", "y", "width", "height"]]

def fileFeed : Json :=
  described "Poll a single file for perform-actions payloads." (.string "object")
    [properties
      [("delete_on_success",
          described "Delete the file after a successful read/parse (default: false)."
            (strings ["boolean", "null"]) [absent .null]),
        ("path", described "Absolute or relative path to the file." (.string "string") []),
        ("poll_ms",
          described "Poll interval in milliseconds (default: 100)." (strings ["integer", "null"])
            [("format", .string "uint64"), absent .null, ("minimum", .number (.unsigned 0))]),
        tag "file"],
      required ["type", "path"]]

def stdinFeed : Json :=
  described "Read payloads from standard input (one JSON document per line)." (.string "object")
    [properties [tag "stdin"], required ["type"]]

def feed : Json :=
  .object
    [("description",
        .string
          ("Payload source configuration.\nUse `type` to select a variant:\n" ++
            "- \"file\": poll a single drop file\n" ++
            "- \"stdin\": read newline-delimited JSON from standard input")),
      ("oneOf", .array [fileFeed, stdinFeed])]

def elements : Json :=
  described
    ("Known element handles and their on-screen bounds.\nExample: `\x7b \"submit\": " ++
      "\x7b \"x\": 10, \"y\": 20, \"width\": 80, \"height\": 24 \x7d \x7d`")
    (.string "object")
    [("additionalProperties", .object [reference "Rect"]), absent (.object [])]

def feeds : Json :=
  described "Payload input sources (file, stdin)." (.string "array")
    [absent (.array []), ("items", .object [reference "SourceConfig"])]

/-- The schema as a value. -/
def config : Json :=
  .object
    [("$schema", .string dialect),
      ("title", .string "Config"),
      ("description",
        .string
          ("Root configuration for Actionforge.\n\n" ++
            "Deserialized from a JSON configuration file. It describes:\n" ++
            "- where perform-actions payloads come from (`sources`)\n" ++
            "- the element registry used for element-relative pointer origins (`elements`)\n" ++
            "- how compiled timelines are replayed (`dispatch`)")),
      ("type", .string "object"),
      properties
        [("dispatch",
            .object [reference "DispatchConfig", absent (.object [("pacing", .bool true)])]),
          ("elements", elements),
          ("sources", feeds)],
      ("$defs",
        .object [("DispatchConfig", dispatch), ("Rect", bounds), ("SourceConfig", feed)])]

/-- The schema as a text. -/
def text : String :=
  config.pretty

end Config.Schema

end ActionReplay
