import Columnar.Text.Keyword

/-!
# Join keywords

The keywords a join may have, and how a given text names one of them.
-/

namespace Columnar.JoinKeyword

/-- The four sides of a join. -/
def sides : List String := ["INNER", "LEFT", "RIGHT", "FULL"]

/-- The sides with a strictness in front. -/
def strict : List String := ["ANY", "ALL"].flatMap fun s ↦ sides.map fun side ↦ s ++ " " ++ side

/-- The sides of half joins with their kind. -/
def half : List String :=
  ["LEFT", "INNER"].flatMap fun side ↦ ["SEMI", "ANTI", "ASOF"].map fun kind ↦ side ++ " " ++ kind

/-- All join keywords. -/
def all : List String :=
  ["CROSS", "ASOF"] ++ sides ++ strict ++ half
    ++ (sides ++ strict ++ half).map fun keyword ↦ "GLOBAL " ++ keyword

/-- The keyword that a text names in any letter case and spacing. -/
def ofText? (s : String) : Option String :=
  let keyword := Text.keywords s
  if all.contains keyword then some keyword else none

/-- Short names of joins, and the keyword each stands for. -/
def shorthands : List (String × String) :=
  [("inner_join", "INNER"), ("left_join", "LEFT"), ("right_join", "RIGHT"), ("full_join", "FULL"),
    ("cross_join", "CROSS"), ("global_left_join", "GLOBAL LEFT"), ("any_left_join", "ANY LEFT"),
    ("semi_join", "LEFT SEMI"), ("anti_join", "LEFT ANTI"), ("asof_join", "ASOF")]

/-- Names of joins that are given a keyword, and what each puts in front of it. -/
def stems : List (String × String) :=
  [("join", ""), ("global_join", "GLOBAL "), ("any_join", "ANY "),
    ("global_any_join", "GLOBAL ANY ")]

/-- Every short name stands for a join keyword. -/
theorem shorthands_mem_all : ∀ e ∈ shorthands, e.2 ∈ all := by decide

/-- There are thirty-eight join keywords. -/
theorem length_all : all.length = 38 := by decide

end Columnar.JoinKeyword
