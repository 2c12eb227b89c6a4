import RatboxServices.Irc.Match

namespace RatboxServices

namespace CString

/-! The hashes of the tables, and their agreement with the comparisons that the
lookups use. -/

/-- `hash_host`. -/
def hashHost (name : CString) : Nat :=
  (name.foldl hashStep 0).toNat % 65536

/-- One turn of `hash_command`: the bit that tells the case of a letter is
masked. -/
def commandStep (h : UInt32) (c : Char) : UInt32 :=
  h + UInt32.ofNat (c.toNat &&& 0xDF)

/-- `hash_command`. -/
def hashCommand (command : CString) : Nat :=
  (command.foldl commandStep 0).toNat % 100

variable {left right : CString}

theorem map_toLower_of_irccmp (same : irccmp left right = true) :
    left.map toLower = right.map toLower := by
  have again := congrArg (List.map toLower) (irccmp_iff.mp same)
  simpa [List.map_map, Function.comp_def, toLower_toUpper] using again

theorem foldl_hashStep_of_irccmp (same : irccmp left right = true) :
    left.foldl hashStep 0 = right.foldl hashStep 0 := by
  rw [foldl_hashStep, foldl_hashStep, map_toLower_of_irccmp same]

theorem hashName_of_irccmp (same : irccmp left right = true) :
    hashName left = hashName right := by
  rw [hashName, hashName, foldl_hashStep_of_irccmp same]

theorem hashHost_of_irccmp (same : irccmp left right = true) :
    hashHost left = hashHost right := by
  rw [hashHost, hashHost, foldl_hashStep_of_irccmp same]

theorem asciiLower_mask (c : Char) :
    (asciiLower c).toNat &&& 0xDF = c.toNat &&& 0xDF := by
  unfold asciiLower
  split
  · rename_i bounds
    have low : 65 ≤ c.toNat := bounds.1
    have high : c.toNat ≤ 90 := bounds.2
    generalize c.toNat = n at low high
    interval_cases n <;> decide
  · rfl

theorem foldl_commandStep (h : UInt32) (command : CString) :
    (command.map asciiLower).foldl commandStep h =
      command.foldl commandStep h := by
  induction command generalizing h with
  | nil => rfl
  | cons c rest ih =>
      rw [List.map_cons, List.foldl_cons, List.foldl_cons, ih]
      rw [commandStep, commandStep, asciiLower_mask]

theorem hashCommand_of_strcasecmp (same : strcasecmp left right = true) :
    hashCommand left = hashCommand right := by
  have equal : left.map asciiLower = right.map asciiLower := by
    simpa [strcasecmp] using same
  rw [hashCommand, hashCommand, ← foldl_commandStep 0 left, equal,
    foldl_commandStep]

end CString

end RatboxServices
