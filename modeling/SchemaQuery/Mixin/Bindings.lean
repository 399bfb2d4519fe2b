import SchemaQuery.Declaration

namespace SchemaQuery

def addNewIds (ids new : List ShapeId) : List ShapeId :=
  new.foldl (fun ids id => if id ∈ ids then ids else ids ++ [id]) ids

namespace Resource

def merge (a b : Resource) : Resource where
  identifiers := a.identifiers.insertAll b.identifiers
  properties := a.properties.insertAll b.properties
  create := b.create <|> a.create
  put := b.put <|> a.put
  read := b.read <|> a.read
  update := b.update <|> a.update
  delete := b.delete <|> a.delete
  list := b.list <|> a.list
  operations := addNewIds a.operations b.operations
  collectionOperations := addNewIds a.collectionOperations b.collectionOperations
  resources := addNewIds a.resources b.resources

def mergeAll (sources : List Resource) : Resource :=
  sources.foldl merge blank

end Resource

namespace Operation

def merge (a b : Operation) : Operation where
  input := b.input <|> a.input
  output := b.output <|> a.output
  errors := addNewIds a.errors b.errors

def mergeAll (sources : List Operation) : Operation :=
  sources.foldl merge blank

end Operation

namespace Service

def merge (a b : Service) : Service where
  version := if b.version = "" then a.version else b.version
  operations := addNewIds a.operations b.operations
  resources := addNewIds a.resources b.resources
  errors := addNewIds a.errors b.errors

def mergeAll (sources : List Service) : Service :=
  sources.foldl merge blank

end Service

end SchemaQuery
