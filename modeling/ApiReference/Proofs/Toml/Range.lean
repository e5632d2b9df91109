import ApiReference.Proofs.Toml.Reading

/-!
# Integers of a document

Whatever text is read, every integer in what comes of it has 64 bits. Main statement:
`inRange_read?`.
-/

namespace ApiReference.Toml

/-- All integers of a value have 64 bits. -/
inductive InRange : Value → Prop where
  | string (t : Text) : InRange (.string t)
  | integer {n : Int} (fits : Fits n) : InRange (.integer n)
  | float (x : Number.Binary64) : InRange (.float x)
  | boolean (b : Bool) : InRange (.boolean b)
  | datetime (d : Datetime) : InRange (.datetime d)
  | array {items : List Value} (each : ∀ v ∈ items, InRange v) : InRange (.array items)
  | table {entries : Table} (each : ∀ e ∈ entries, InRange e.2) : InRange (.table entries)

theorem fits_of_bounded? {n m : Int} (found : Number.bounded? 64 n = some m) : Fits m := by
  rw [Number.bounded?] at found
  split at found
  · next within =>
      obtain rfl := Option.some.inj found
      simpa [Fits] using within
  · cases found

theorem fits_of_integer? {t : Text} {n : Int} (found : integer? t = some n) : Fits n := by
  rw [integer?.eq_def] at found
  split at found <;>
  · obtain ⟨ds, -, bounded⟩ := Option.bind_eq_some_iff.1 found
    exact fits_of_bounded? bounded

/-- Whatever is read, its integers have 64 bits. -/
theorem inRange_read? {t : Text} {table : Table} (found : read? t = some table) :
    ∀ e ∈ table, InRange e.2 := by
  have inherited : IsInherited InRange := by
    refine ⟨.string, fun found => ?_, .array, fun _ => .table⟩
    obtain ⟨b, rfl⟩ | ⟨_, n, number, rfl⟩ | ⟨x, rfl⟩ | ⟨d, rfl⟩ := readWord_cases found
    · exact .boolean b
    · exact .integer (fits_of_integer? number)
    · exact .float x
    · exact .datetime d
  cases inherited.read? found with
  | table each => exact each

end ApiReference.Toml
