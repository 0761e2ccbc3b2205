import DatafileMigration.Proofs.Script.Reader
import DatafileMigration.Text.Digit

namespace DatafileMigration.Script

/-- Words that the statements of a generated module may have outside of strings: functions, their
keywords and constants. -/
def vocabulary : List String :=
  ["create_kafka_connection", "create_s3_connection", "define_datasource", "define_pipe",
   "define_materialized_view", "define_copy_pipe", "node", "t", "p", "engine", "column",
   "merge_tree", "replacing_merge_tree", "summing_merge_tree", "aggregating_merge_tree",
   "collapsing_merge_tree", "versioned_collapsing_merge_tree",
   "string", "uuid", "int8", "int16", "int32", "int64", "int128", "int256", "uint8", "uint16",
   "uint32", "uint64", "uint128", "uint256", "float32", "float64", "bool", "boolean", "date",
   "date32", "date_time", "date_time64", "json", "ipv4", "ipv6", "fixed_string", "decimal",
   "enum8", "enum16", "array", "tuple", "map", "simple_aggregate_function",
   "aggregate_function", "nullable", "low_cardinality", "default", "codec", "optional",
   "True", "False", "None",
   "description", "json_paths", "json_path", "schema", "kafka", "s3", "forward_query", "tokens",
   "shared_with", "sorting_key", "partition_key", "primary_key", "ttl", "ver", "is_deleted",
   "sign", "version", "columns", "settings", "params", "datasource", "deployment_method",
   "copy_mode", "copy_schedule", "nodes", "name", "sql", "endpoint", "output",
   "bootstrap_servers", "security_protocol", "sasl_mechanism", "key", "secret",
   "schema_registry_url", "ssl_ca_pem", "region", "arn", "access_key"]

def punctuation : List Char := "()[]\x7b\x7d,=:.-+".toList

/-- A digit, then digits and the mark of an exponent. -/
def isNumeral : Text → Bool
  | [] => false
  | c :: t => Text.isDigit c && t.all fun c => Text.isDigit c || c = 'e'

/-- Whether a token may stand in any module, with the value of a string left open. -/
def Token.isFixed : Token → Bool
  | .word w => vocabulary.any (·.toList = w) || isNumeral w
  | .string _ => true
  | .mark c => punctuation.contains c
  | .comment _ => false

/-- A token that may stand in any module, or is free to stand in this one. -/
def Token.Known (free : Token → Prop) (token : Token) : Prop :=
  token.isFixed ∨ free token

/-- The values of the strings among tokens. -/
def strings : List Token → List Text
  | [] => []
  | .string value :: tokens => value :: strings tokens
  | _ :: tokens => strings tokens

/-- The texts are values of strings, in this order, and all tokens are known. -/
structure Holds (free : Token → Prop) (tokens : List Token) (texts : List Text) : Prop where
  texts : texts.Sublist (strings tokens)
  known : ∀ token ∈ tokens, token.Known free

variable {free : Token → Prop} {tokens more : List Token} {texts others : List Text}

theorem strings_append (tokens more : List Token) :
    strings (tokens ++ more) = strings tokens ++ strings more := by
  induction tokens with
  | nil => rfl
  | cons token tokens ih =>
    cases token with
    | string value => exact congrArg (value :: ·) ih
    | word w => exact ih
    | mark c => exact ih
    | comment t => exact ih

namespace Holds

theorem nil : Holds free [] [] where
  texts := List.nil_sublist _
  known _ member := absurd member List.not_mem_nil

theorem append (first : Holds free tokens texts) (second : Holds free more others) :
    Holds free (tokens ++ more) (texts ++ others) where
  texts := by
    rw [strings_append]
    exact first.texts.append second.texts
  known token member :=
    (List.mem_append.mp member).elim (first.known token) (second.known token)

theorem mono (holds : Holds free tokens texts) (fewer : others.Sublist texts) :
    Holds free tokens others where
  texts := fewer.trans holds.texts
  known := holds.known

theorem singleton {token : Token} (known : token.Known free) : Holds free [token] [] where
  texts := List.nil_sublist _
  known _ member := List.mem_singleton.mp member ▸ known

theorem string (value : Text) : Holds free [.string value] [value] where
  texts := List.Sublist.refl _
  known _ member := List.mem_singleton.mp member ▸ Or.inl rfl

theorem ofFixed (fixed : tokens.all Token.isFixed) : Holds free tokens [] where
  texts := List.nil_sublist _
  known token member := Or.inl (List.all_eq_true.mp fixed token member)

end Holds

end DatafileMigration.Script
