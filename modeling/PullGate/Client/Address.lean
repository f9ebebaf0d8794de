/-!
# Addresses

An address is a path, perhaps a question mark and a query, and perhaps a sharp sign and a fragment,
which is not sent. Some characters must not stand in it.
-/

namespace PullGate.Client

/-- How many bytes an address may have. -/
def addressLimit : Nat := 65534

/-- Whether a character may stand in a path. -/
def mayStandInPath (c : Char) : Bool := '!' ≤ c && ! ['<', '>', '\x60'].contains c

/-- Whether a character may stand in a query. -/
def mayStandInQuery (c : Char) : Bool := '!' ≤ c && ! ['"', '<', '>'].contains c

/-- The address as it is sent, if it can be. What follows a sharp sign is not looked at. -/
def address? (text : String) : Option String :=
  let sent := text.toList.takeWhile (· ≠ '#')
  let path := sent.takeWhile (· ≠ '?')
  let query := sent.dropWhile (· ≠ '?')
  if text.utf8ByteSize ≤ addressLimit && path.all mayStandInPath && query.all mayStandInQuery then
    some (String.ofList sent)
  else none

/-- The address with a query, or with more in the query that it has. -/
def withQuery (address query : String) : String :=
  address ++ (if address.toList.contains '?' then "&" else "?") ++ query

/-- An address that is sent has no fragment. -/
theorem not_mem_of_address? {text sent : String} (h : address? text = some sent) :
    '#' ∉ sent.toList := by
  simp only [address?, Option.ite_none_right_eq_some, Option.some.injEq] at h
  obtain ⟨-, rfl⟩ := h
  intro hmem
  rw [String.toList_ofList] at hmem
  simpa using List.all_eq_true.1 List.all_takeWhile '#' hmem

end PullGate.Client
