import DocumentMapper.Proofs.Json.RoundTrip

/-
  Objects that are read from texts.

  The members of an object stand in its text one after the
  other, and a key may be repeated. The object that is read
  has distinct keys, each with the value that stands last.

  Key definitions include:
    * `Json.readObject?`
    * `Json.standing?`

  Main statements include:
    * `Json.standing?_of_parse?`
    * `Json.keys_nodup_of_parse?`
    * `Json.lookup?_of_parse?`
-/

namespace DocumentMapper

namespace Json

------------------------------------------------------------
-- Members as They Stand
------------------------------------------------------------

/- The members of an object behind leading blanks, one by one. -/
def readObject?
    (fuel : Nat)
    (s : Text) : Option (List (Text × Json) × Text) :=
  match skipBlanks s with
  | 0x7B :: rest =>
      match skipBlanks rest with
      | 0x7D :: rest => some ([], rest)
      | rest => readMembers? fuel rest
  | _ => none

/- Two braces hold no members. -/
theorem readObject?_empty
    {fuel : Nat}
    {s rest tail : Text}
    (hOpen : skipBlanks s = 0x7B :: rest)
    (hClose : skipBlanks rest = 0x7D :: tail) :
    readObject? fuel s = some ([], tail) := by
  simp only [readObject?, hOpen, hClose]

/- Members stand behind a brace that is not closed at once. -/
theorem readObject?_members
    {fuel : Nat}
    {s rest : Text}
    (hOpen : skipBlanks s = 0x7B :: rest)
    (hSome : ∀ tail, skipBlanks rest ≠ 0x7D :: tail) :
    readObject? fuel s = readMembers? fuel (skipBlanks rest) := by
  simp only [readObject?, hOpen]

/-
  The members that stand in the text of an object, in order
  and as often as their keys are repeated.
-/
def standing?
    (s : Text) : Option (List (Text × Json)) :=
  match readObject? (2 * s.length + 1) (skipMark s) with
  | some (members, rest) =>
      if isAtEnd rest then some members else none
  | none => none

/- A number is no object. -/
theorem toJson?_ne_object
    (n : Numeral)
    (members : List (Text × Json)) :
    n.toJson? ≠ some (.object members) := by
  unfold Numeral.toJson?
  dsimp only
  split
  · nofun
  · split
    · nofun
    · split <;> nofun

/- An object is read from the members that stand in the text. -/
theorem readObject?_of_readValue?
    {fuel : Nat}
    {s rest : Text}
    {members : List (Text × Json)}
    (h :
      readValue? (fuel + 1) s = some (.object members, rest)) :
    ∃ standing,
      readObject? fuel s = some (standing, rest) ∧
        Association.merge [] standing = members := by
  rw [readValue?.eq_def] at h
  dsimp only at h
  split at h
  · rcases Option.bind_eq_some_iff.mp h with ⟨_, -, hString⟩
    cases hString
  · split at h
    · cases h
    · rcases Option.bind_eq_some_iff.mp h with ⟨_, -, hArray⟩
      cases hArray
  · rename_i hOpen
    split at h
    · rename_i hClose
      cases h
      exact ⟨[], readObject?_empty hOpen hClose, rfl⟩
    · rename_i hSome
      rcases Option.bind_eq_some_iff.mp h with
        ⟨⟨standing, _⟩, hMembers, hObject⟩
      cases hObject
      refine ⟨standing, ?_, rfl⟩
      rw [readObject?_members hOpen hSome]
      exact hMembers
  · split at h
    · cases h
    · split at h
      · cases h
      · split at h
        · cases h
        · rcases Option.bind_eq_some_iff.mp h with ⟨_, -, hRest⟩
          rcases Option.bind_eq_some_iff.mp hRest with
            ⟨value, hValue, hNumber⟩
          cases hNumber
          exact absurd hValue (toJson?_ne_object _ _)

------------------------------------------------------------
-- Objects That Are Read
------------------------------------------------------------

variable {s : Text}
variable {members standing : List (Text × Json)}

/- An object is what the members in its text are bound to. -/
theorem standing?_of_parse?
    (h : parse? s = some (.object members)) :
    ∃ standing,
      standing? s = some standing ∧
        Association.merge [] standing = members := by
  unfold parse? at h
  split at h
  · rename_i value rest hRead
    split at h
    · rename_i hEnd
      cases h
      rcases readObject?_of_readValue? hRead with
        ⟨standing, hStanding, hMembers⟩
      refine ⟨standing, ?_, hMembers⟩
      rw [standing?, hStanding]
      exact if_pos hEnd
    · cases h
  · cases h

/- The keys of an object that is read are distinct. -/
theorem keys_nodup_of_parse?
    (h : parse? s = some (.object members)) :
    (Association.keys members).Nodup := by
  rcases standing?_of_parse? h with ⟨standing, -, rfl⟩
  exact Association.nodup_merge standing List.nodup_nil

/- Of the members that stand under one key, the last one counts. -/
theorem lookup?_of_parse?
    (h : parse? s = some (.object members)) :
    ∃ standing,
      standing? s = some standing ∧
        ∀ key,
          Association.lookup? key members =
            Association.lookup? key standing.reverse := by
  rcases standing?_of_parse? h with ⟨standing, hStanding, rfl⟩
  refine ⟨standing, hStanding, fun key => ?_⟩
  rw [Association.lookup?_merge]
  exact Option.or_none

end Json

end DocumentMapper
