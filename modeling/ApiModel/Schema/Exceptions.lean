import ApiModel.Name.Parse

/-!
# Exceptions

Members whose type in the schema isn't the one of the model, and types that
have no collection.
-/

namespace ApiModel

/-- A `member` of the struct `owner`, by name. -/
structure MemberKey where
  owner : Name
  member : Name
deriving DecidableEq, Repr

instance : Ord MemberKey where
  compare a b := (compare a.owner b.owner).then (compare a.member b.member)

instance : Std.TransOrd MemberKey :=
  inferInstanceAs (Std.TransCmp (compareLex (compareOn MemberKey.owner) (compareOn MemberKey.member)))

instance : Std.LawfulEqOrd MemberKey where
  compare_self {a} := Ordering.then_eq_eq.mpr
    ⟨Std.ReflOrd.compare_self (a := a.owner), Std.ReflOrd.compare_self (a := a.member)⟩
  eq_of_compare {a b} h := by
    obtain ⟨ho, hm⟩ := Ordering.then_eq_eq.mp h
    cases a
    cases b
    simp_all

/-- Types of members in the schema, where they aren't those of the model. -/
abbrev Overrides := Std.TreeMap MemberKey String

def Overrides.get? (table : Overrides) (owner member : Name) : Option String :=
  table[MemberKey.mk owner member]?

/-- A table with `rows` of owner, member and type; of rows for one member the last counts. -/
def Overrides.ofRows (rows : List (Name × Name × String)) : Overrides :=
  rows.foldl (fun table (owner, member, type) => table.insert ⟨owner, member⟩ type) ∅

/-- The `standardOverrides`, with the words of the names divided by `-`. -/
def standardRows : List (String × String × String) := [
  ("disk", "actual-size", "xs:long"),
  ("disk", "initial-size", "xs:long"),
  ("disk", "provisioned-size", "xs:long"),
  ("gluster-client", "bytes-read", "xs:long"),
  ("gluster-client", "bytes-written", "xs:long"),
  ("host", "max-scheduling-memory", "xs:long"),
  ("host", "memory", "xs:long"),
  ("host-nic", "speed", "xs:long"),
  ("logical-unit", "discard-max-size", "xs:long"),
  ("logical-unit", "size", "xs:long"),
  ("memory-policy", "guaranteed", "xs:long"),
  ("memory-policy", "max", "xs:long"),
  ("numa-node", "memory", "xs:long"),
  ("quota-cluster-limit", "memory-limit", "xs:double"),
  ("quota-cluster-limit", "memory-usage", "xs:double"),
  ("quota-storage-limit", "limit", "xs:long"),
  ("quota-storage-limit", "usage", "xs:double"),
  ("statistic", "kind", "StatisticKind"),
  ("statistic", "type", "ValueType"),
  ("statistic", "unit", "StatisticUnit"),
  ("storage-domain", "available", "xs:long"),
  ("storage-domain", "committed", "xs:long"),
  ("storage-domain", "used", "xs:long"),
  ("ticket", "expiry", "xs:unsignedInt"),
  ("vm-base", "memory", "xs:long")]

def standardOverrides : Overrides :=
  .ofRows (standardRows.map fun (owner, member, type) =>
    (Name.ofSeparated '-' owner, Name.ofSeparated '-' member, type))

/-- Types that have no collection: only `Action`. -/
def standardWithoutCollection : NameSet :=
  .ofList [Name.ofCase "Action"]

end ApiModel
