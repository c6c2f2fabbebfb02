import Columnar.Relation.Catalog

/-!
# The schema of a community site

Users with posts, profiles and events: a small catalog that shows every kind of relation and of
table option. Users have many posts and events and one profile, and a profile has badges and
links.
-/

namespace Columnar.Community

private def table (name : String) (columns : List (String × String))
    (options : TableOptions := {}) : Table where
  name
  columns := columns.map fun c ↦ (c.1, { name := c.1, type := c.2, table := some name })
  options

/-- Users, by their number. -/
def users : Table :=
  table "users" [("id", "UInt64"), ("email", "String"), ("created_at", "DateTime")]
    { primaryKey := ["id"], orderBy := ["id"] }

/-- Posts of users. -/
def posts : Table :=
  table "posts" [("id", "UInt64"), ("user_id", "UInt64"), ("title", "String")]
    { primaryKey := ["id"] }

/-- Profiles of users. -/
def profiles : Table :=
  table "profiles" [("id", "UInt64"), ("user_id", "UInt64"), ("bio", "String")]

/-- Badges shown on profiles. -/
def badges : Table :=
  table "badges" [("id", "UInt64"), ("profile_id", "UInt64"), ("label", "String")]

/-- Links shown on profiles. -/
def links : Table :=
  table "links" [("id", "UInt64"), ("profile_id", "UInt64"), ("url", "String")]

/-- Events of users, on a cluster; they may be changed. -/
def events : Table :=
  table "events"
    [("id", "UInt64"), ("user_id", "UInt64"), ("kind", "String"), ("score", "Float64"),
      ("tags", "Array(String)")]
    { cluster := some "main", appendOnly := false }

/-- Metrics, with a projection. -/
def metrics : Table :=
  table "metrics" [("id", "UInt64"), ("value", "Float64")] { projections := ["by_value"] }

/-- Accounts, one of whose columns is stored under another name than its key. -/
def accounts : Table :=
  { name := "accounts"
    columns :=
      [("userId", { name := "uid", type := "UInt64", table := some "accounts" }),
        ("display_name", { name := "display_name", type := "String", table := some "accounts" }),
        ("Region", { name := "Region", type := "String", table := some "accounts" })] }

private def columnsNamed (name : String) (t : Table) : List Column := (t.column? name).toList

/-- The relation of a table to the rows of a target that hold the table's number. -/
private def relation (kind : RelationKind) (source target : Table) (number : TableId)
    (reference : String) : Relation :=
  { kind, target := number, fields := columnsNamed "id" source,
    references := columnsNamed reference target }

/-- All tables with their relations, each under the number of its place. -/
def catalog : Catalog where
  entries := #[
    { table := users
      relations :=
        [("posts", relation .many users posts 1 "user_id"),
          ("profile", relation .one users profiles 2 "user_id"),
          ("events", relation .many users events 5 "user_id")] },
    { table := posts },
    { table := profiles
      relations :=
        [("badges", relation .many profiles badges 3 "profile_id"),
          ("links", relation .many profiles links 4 "profile_id")] },
    { table := badges },
    { table := links },
    { table := events },
    { table := metrics },
    { table := accounts }]

end Columnar.Community
