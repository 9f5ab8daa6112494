/-!
# Configuration

What a query may do beyond reading plain data. The same choice can be given as bits of a number, of
which only the lowest has a meaning.
-/

namespace PathQuery

/-- The options of a query. Reference: `JsonPathConfig`. -/
structure Config where
  /-- Whether names are looked up in host objects. -/
  allowDynamic : Bool := false
  deriving DecidableEq, Repr

namespace Config

/-- The configuration that a number's bits ask for. Reference: `JsonPathConfig.from_flags`. -/
def ofFlags (flags : UInt32) : Config := ⟨flags % 2 == 1⟩

/-- The bits that ask for a configuration. Reference: `JsonPathConfig.flags`. -/
def flags (c : Config) : UInt32 := if c.allowDynamic then 1 else 0

@[simp] theorem ofFlags_flags (c : Config) : ofFlags c.flags = c := by
  obtain ⟨b⟩ := c
  cases b <;> rfl

end Config

end PathQuery
