import DatafileMigration.Grammar.Directive

namespace DatafileMigration.Grammar

open Datafile

/-- The fields of a connection as far as they are read, of both types. -/
structure ConnectionDraft where
  type : Option Text := none
  bootstrapServers : Option Text := none
  securityProtocol : Option Text := none
  saslMechanism : Option Text := none
  key : Option Text := none
  brokerSecret : Option Text := none
  schemaRegistryUrl : Option Text := none
  sslCaPem : Option Text := none
  region : Option Text := none
  arn : Option Text := none
  accessKey : Option Text := none
  storeSecret : Option Text := none
  deriving DecidableEq, Repr

namespace ConnectionDraft

def setBroker (draft : ConnectionDraft) (value : Text) : BrokerPart → ConnectionDraft
  | .bootstrapServers => { draft with bootstrapServers := some value }
  | .securityProtocol => { draft with securityProtocol := some value }
  | .saslMechanism => { draft with saslMechanism := some value }
  | .key => { draft with key := some value }
  | .secret => { draft with brokerSecret := some value }
  | .schemaRegistryUrl => { draft with schemaRegistryUrl := some value }
  | .sslCaPem => { draft with sslCaPem := some value }

def setStore (draft : ConnectionDraft) (value : Text) : StorePart → ConnectionDraft
  | .region => { draft with region := some value }
  | .arn => { draft with arn := some value }
  | .accessKey => { draft with accessKey := some value }
  | .secret => { draft with storeSecret := some value }

/-- The draft after a directive. A certificate may be a block. -/
def take (draft : ConnectionDraft) (d : Directive) : Parse ConnectionDraft :=
  match keyword? connectionKeywords d.keyword with
  | none => .ok draft
  | some .type => do
    let value ← requireUnquoted d
    return { draft with type := some (Text.lower value) }
  | some (.broker part) =>
    if part = .sslCaPem && d.isBlock then .ok (draft.setBroker d.text part)
    else do
      let value ← requireUnquoted d
      return draft.setBroker value part
  | some (.store part) => do
    let value ← requireUnquoted d
    return draft.setStore value part

def saysBroker (draft : ConnectionDraft) : Bool :=
  [draft.bootstrapServers, draft.securityProtocol, draft.saslMechanism, draft.key,
    draft.brokerSecret, draft.schemaRegistryUrl, draft.sslCaPem].any isFilled

def saysStore (draft : ConnectionDraft) : Bool :=
  [draft.region, draft.arn, draft.accessKey, draft.storeSecret].any isFilled

/-- A word that must be one of a few, if it is there. -/
def choose {α : Type} [Choice α] (refusal : Text → Cause) : Option Text → Parse (Option α)
  | none => .ok none
  | some t =>
    match Choice.ofText? t with
    | some a => .ok (some a)
    | none => refuse (refusal t)

def toKafka (draft : ConnectionDraft) (name path : Text) : Parse Connection := do
  if draft.saysStore then refuse .s3InKafka
  if !isFilled draft.bootstrapServers then refuse .bootstrapRequired
  let securityProtocol ← choose .securityProtocol draft.securityProtocol
  let saslMechanism ← choose .saslMechanism draft.saslMechanism
  return .kafka
    { name, path, bootstrapServers := draft.bootstrapServers.getD [], securityProtocol,
      saslMechanism, key := draft.key, secret := draft.brokerSecret,
      schemaRegistryUrl := draft.schemaRegistryUrl, sslCaPem := draft.sslCaPem }

def toS3 (draft : ConnectionDraft) (name path : Text) : Parse Connection := do
  if draft.saysBroker then refuse .kafkaInS3
  if !isFilled draft.region then refuse .regionRequired
  let hasKey := isFilled draft.accessKey
  let hasSecret := isFilled draft.storeSecret
  if !isFilled draft.arn && !(hasKey && hasSecret) then refuse .credentialsRequired
  if hasKey != hasSecret then refuse .credentialsUnpaired
  return .s3
    { name, path, region := draft.region.getD [], arn := draft.arn, accessKey := draft.accessKey,
      secret := draft.storeSecret }

def finish (draft : ConnectionDraft) (name path : Text) : Parse Connection := do
  let type := draft.type.getD []
  if type = [] then refuse .typeRequired
  else if type = "kafka" then draft.toKafka name path
  else if type = "s3" then draft.toS3 name path
  else refuse (.connectionType type)

end ConnectionDraft

/-- A connection has a type and the fields that belong to it, each in its own directive. -/
def buildConnection (name path : Text) (ds : List Directive) : Parse Connection := do
  let draft ← ds.foldlM ConnectionDraft.take {}
  draft.finish name path

end DatafileMigration.Grammar
