import DatafileMigration.Module.Statement

namespace DatafileMigration

def KafkaConnection.statement (c : KafkaConnection) : Statement where
  kind := .connection
  name := c.name
  function := "create_kafka_connection"
  arguments :=
    ("bootstrap_servers", .expression (Text.quoted c.bootstrapServers))
      :: (Argument.filled "security_protocol" (c.securityProtocol.map Choice.text)
        ++ Argument.filled "sasl_mechanism" (c.saslMechanism.map Choice.text)
        ++ Argument.filled "key" c.key
        ++ Argument.filled "secret" c.secret
        ++ Argument.filled "schema_registry_url" c.schemaRegistryUrl
        ++ Argument.filled "ssl_ca_pem" c.sslCaPem)

def S3Connection.statement (c : S3Connection) : Statement where
  kind := .connection
  name := c.name
  function := "create_s3_connection"
  arguments :=
    ("region", .expression (Text.quoted c.region))
      :: (Argument.filled "arn" c.arn
        ++ Argument.filled "access_key" c.accessKey
        ++ Argument.filled "secret" c.secret)

def Connection.statement : Connection → Statement
  | .kafka c => c.statement
  | .s3 c => c.statement

end DatafileMigration
