import Columnar.Fetch.Engine

/-!
# Connections

A database is a client, a schema of tables and a template cache. Caches and clients are referred
to by their numbers, so that databases can share them. Databases that were connected are found
again by the name of the connection.
-/

namespace Columnar

/-- The number of a cache. -/
abbrev CacheId := Nat

/-- The number of a client. -/
abbrev ClientId := Nat

/-- A database: its client, its template cache, and the tables of its schema. -/
structure Database where
  client : ClientId
  cache : CacheId
  schema : List (String × TableId) := []
  deriving DecidableEq, Repr, Inhabited

namespace Database

/-- The same database through another client; the cache is shared. -/
def withClient (d : Database) (client : ClientId) : Database := { d with client }

/-- The table of the schema under a key. -/
def table (d : Database) (key : String) : Except Failure TableId :=
  match Keyed.find? key d.schema with
  | some id => .ok id
  | none => .error (.noKey (.text key))

/-- The table of the schema with the name of an attribute, of which `method` is to be called: a
mapping of all tables, which has no such method, stands under a reserved name. -/
def attributeTable (d : Database) (method name : String) : Except Failure TableId :=
  if name = "_engines" then .error (.noAttribute Kind.map.native method)
  else if "_".toList.isPrefixOf name.toList then .error (.reservedName name)
  else
    match Keyed.find? name d.schema with
    | some id => .ok id
    | none => .error (.noSchemaTable name (Keyed.keys d.schema))

/-- Whether the schema has a table under a key. -/
def contains (d : Database) (key : String) : Bool := Keyed.contains key d.schema

end Database

/-- A query and the database that executes it, if one was chosen. -/
structure BoundQuery where
  query : Query := .empty
  database : Option Database := none
  deriving Inhabited

/-- The caches in use and the connections made. -/
structure Connections where
  caches : Array TemplateCache := #[]
  registry : List (String × Database) := []
  deriving Inhabited

namespace Connections

/-- The name of a connection for which none is given. -/
def defaultName : String := "default"

/-- Adds a cache; its number, and the connections that have it. -/
def addCache (c : Connections) (cache : TemplateCache) : CacheId × Connections :=
  (c.caches.size, { c with caches := c.caches.push cache })

/-- Replaces a cache. -/
def setCache (c : Connections) (id : CacheId) (cache : TemplateCache) : Connections :=
  { c with caches := c.caches.setIfInBounds id cache }

/-- Connects a client under a name, with a cache of its own unless one is given. -/
def connect (client : ClientId) (name : String) (schema : List (String × TableId))
    (cache : Option CacheId) (capacity : Int) : Session Connections Database := do
  let cache ← match cache with
    | some id => pure id
    | none => do
      let fresh ← liftM (m := Except Failure) (n := Traced) (TemplateCache.new capacity)
      modifyGet (·.addCache fresh)
  let database : Database := { client, cache, schema := Keyed.ofList schema }
  modify fun c ↦ { c with registry := Keyed.set name database c.registry }
  return database

/-- The database connected under a name. -/
def database (c : Connections) (name : String) : Except Failure Database :=
  match Keyed.find? name c.registry with
  | some d => .ok d
  | none => .error (.noConnection name)

/-- The cache with a number; a cache that was never added is an empty one. -/
def cache (c : Connections) (id : CacheId) : TemplateCache :=
  c.caches.getD id { capacity := 1000, positive := by decide }

/-- Runs a computation on a cache. -/
def onCache {σ α : Type} (id : CacheId) (x : Session (TemplateCache × σ) α) :
    Session (Connections × σ) α := fun s ↦
  let (answer, cache, client) := x (s.1.cache id, s.2)
  (answer, (s.1.setCache id cache, client))

/-- Runs a computation on a cache alone. -/
def onCacheOnly {α : Type} (id : CacheId) (x : Session TemplateCache α) : Session Connections α :=
  fun c ↦
    let (answer, cache) := x (c.cache id)
    (answer, c.setCache id cache)

/-- A cache that was added is found under its number. -/
theorem cache_addCache (c : Connections) (cache : TemplateCache) :
    (c.addCache cache).2.cache (c.addCache cache).1 = cache := by
  simp [Connections.cache, addCache]

end Connections

namespace BoundQuery

/-- The statement of a query, through the cache of its database if it has one. -/
def toSql (b : BoundQuery) : Session Connections (String × Params × List String) :=
  match b.database with
  | some d => Connections.onCacheOnly d.cache b.query.toSql
  | none => liftM b.query.toSqlFresh

/-- The rows of a query, from the database it is bound to. -/
def fetch {σ : Type} (client : Client σ) (b : BoundQuery) :
    Session (Connections × σ) (List Row) :=
  match b.database with
  | none => throw .unbound
  | some d => Connections.onCache d.cache do
    let e ← b.query.prepare.onFirst
    (e.execute client).onSecond

end BoundQuery

end Columnar
