import DistinctCount.Sketch.Text
import DistinctCount.Proofs.Json.Written
import DistinctCount.Proofs.Sketch.Revision

namespace DistinctCount

namespace Json

theorem toUInt8?_natural (b : UInt8) : toUInt8? (.natural b.toNat) = some b := by
  simp [toUInt8?, toNatBelow?, b.toNat_lt]

theorem toUInt64?_natural (n : UInt64) : toUInt64? (.natural n.toNat) = some n := by
  simp [toUInt64?, toNatBelow?, n.toNat_lt]

theorem mapM_toUInt8? (bytes : List UInt8) :
    (bytes.map fun b => natural b.toNat).mapM toUInt8? = some bytes := by
  induction bytes with
  | nil => rfl
  | cons b bytes ih => simp [toUInt8?_natural, ih]

end Json

namespace Sketch

variable {s : Sketch} {text : String} {data : List UInt8}

theorem readText_toJson (s : Sketch) : Json.readText s.toJson = some
    (.array [.string (some s.key), .natural s.expiresAt.toNat,
      .array (s.toBytes.map fun b => .natural b.toNat)], true) := by
  apply Json.Reads.readText
  refine Json.reads_bracket (.cons (Json.reads_literal _) (.cons (Json.reads_digits _) (.cons ?_ .nil)))
  apply Json.reads_bracket
  rw [List.forall₂_map_left_iff, List.forall₂_map_right_iff, List.forall₂_same]
  exact fun b _ => Json.reads_digits _

theorem ofJson_toJson (s : Sketch) :
    ofJson s.toJson = (ofBytes s.key 0 s.expiresAt s.toBytes).mapError .refused := by
  have hparts : parts? (.array [.string (some s.key), .natural s.expiresAt.toNat,
      .array (s.toBytes.map fun b => .natural b.toNat)]) = some (s.key, s.expiresAt, s.toBytes) := by
    simp only [parts?, Json.toText?, Json.toUInt64?_natural, Json.mapM_toUInt8?]
    rfl
  rw [ofJson, readText_toJson]
  simp only [hparts]
  cases ofBytes s.key 0 s.expiresAt s.toBytes <;> rfl

/-- The part of a sketch that its text holds, as a clean sketch of shard 0. -/
def carried (s : Sketch) : Sketch :=
  { key := s.key, shard := 0, expiresAt := s.expiresAt, slots := s.slots, nonZero := s.nonZero }

theorem Valid.ofJson_toJson (hs : s.Valid) : ofJson s.toJson = .ok s.carried := by
  have hbytes : ofBytes s.key 0 s.expiresAt s.toBytes = .ok s.carried :=
    ofBytes_eq_ok.2 ⟨_, hs.decode_toBytes, rfl⟩
  rw [Sketch.ofJson_toJson, hbytes]
  rfl

theorem toJson_carried (s : Sketch) : s.carried.toJson = s.toJson :=
  rfl

theorem ofJson_eq_ok (h : ofJson text = .ok s) :
    ∃ key expiresAt data, ofBytes key 0 expiresAt data = .ok s := by
  unfold ofJson at h
  cases hread : Json.readText text with
  | none =>
    rw [hread] at h
    exact absurd h nofun
  | some r =>
    obtain ⟨value, whole⟩ := r
    cases hparts : parts? value with
    | none =>
      simp only [hread, hparts] at h
      exact absurd h nofun
    | some p =>
      obtain ⟨key, expiresAt, data⟩ := p
      refine ⟨key, expiresAt, data, ?_⟩
      simp only [hread, hparts] at h
      cases hbytes : ofBytes key 0 expiresAt data with
      | error e =>
        rw [hbytes] at h
        exact absurd h nofun
      | ok s' =>
        rw [hbytes] at h
        cases whole with
        | false => exact absurd h nofun
        | true => exact congrArg _ (Except.ok.inj h)

/--
The states of a sketch that is created, read from bytes or read from a text, whatever hashes it
counts and whatever expiries it is given afterwards.
-/
inductive Attained : Sketch → Prop
  | new (key : String) (shard : Nat) (expiresAt : UInt64) : Attained { key, shard, expiresAt }
  | ofBytes {key : String} {shard : Nat} {expiresAt : UInt64} {data : List UInt8} {s : Sketch} :
    ofBytes key shard expiresAt data = .ok s → Attained s
  | ofJson {text : String} {s : Sketch} : ofJson text = .ok s → Attained s
  | addHash {s : Sketch} (h : UInt32) : Attained s → Attained (s.addHash h).1
  | expire {s : Sketch} (expiresAt : UInt64) : Attained s → Attained { s with expiresAt }

theorem Attained.valid (h : s.Attained) : s.Valid := by
  induction h with
  | new key shard expiresAt => exact valid_new key shard expiresAt false
  | ofBytes h => exact valid_ofBytes h
  | ofJson h =>
    obtain ⟨key, expiresAt, data, hbytes⟩ := ofJson_eq_ok h
    exact valid_ofBytes hbytes
  | addHash h _ ih => exact ih.addHash h
  | expire expiresAt _ ih => exact ⟨ih.bounded, ih.counted⟩

/-- What was read from a text carries nothing beside the text. -/
theorem carried_of_ofJson (h : ofJson text = .ok s) : s.carried = s := by
  obtain ⟨key, expiresAt, data, hbytes⟩ := ofJson_eq_ok h
  obtain ⟨d, -, rfl⟩ := ofBytes_eq_ok.1 hbytes
  rfl

/--
A sketch survives its JSON text: what is read back has its key, expiry and slots, is clean and of
shard 0, and has the same text. A sketch that was read from any text is read back unchanged.
-/
theorem json_round_trip :
    (∀ s : Sketch, s.Attained → ∃ s', ofJson s.toJson = .ok s' ∧
      s'.key = s.key ∧ s'.expiresAt = s.expiresAt ∧ s'.slots = s.slots ∧ s'.nonZero = s.nonZero ∧
      s'.shard = 0 ∧ s'.pending = 0 ∧ s'.toJson = s.toJson) ∧
    ∀ text (s : Sketch), ofJson text = .ok s → ofJson s.toJson = .ok s := by
  constructor
  · intro s hs
    exact ⟨s.carried, hs.valid.ofJson_toJson, rfl, rfl, rfl, rfl, rfl, rfl, toJson_carried s⟩
  · intro text s hs
    have hvalid := (Attained.ofJson hs).valid
    rw [hvalid.ofJson_toJson, carried_of_ofJson hs]

/-- A text as no writer would write it: with blanks, and with escapes that are not needed. -/
def looseText : String :=
  "\n[ \"\\u006b\\/\\ud83d\\ude00\" ,0,[1, 3 ,5] ]\t"

theorem json_round_trip_escaped :
    (∃ s', ofJson (({ key := "\"\\/\n\x01é😀", shard := 3, expiresAt := 18446744073709551615 } :
        Sketch).addHash 0x05000001).1.toJson = .ok s' ∧
      s'.key = "\"\\/\n\x01é😀" ∧ s'.expiresAt = 18446744073709551615 ∧ s'.nonZero = 1 ∧
      s'.shard = 0 ∧ s'.pending = 0) ∧
    ∃ s, ofJson looseText = .ok s ∧ s.key = "k/😀" ∧ s.nonZero = 1 ∧ ofJson s.toJson = .ok s := by
  constructor
  · obtain ⟨s', hread, hkey, hexpiry, -, hcount, hshard, hpending, -⟩ :=
      json_round_trip.1 _ (.addHash 0x05000001 (.new "\"\\/\n\x01é😀" 3 18446744073709551615))
    exact ⟨s', hread, hkey, hexpiry, hcount, hshard, hpending⟩
  · have hloose : (ofJson looseText).toOption.map (fun s => (s.key, s.nonZero)) =
        some ("k/😀", 1) := by decide +kernel
    cases hs : ofJson looseText with
    | error e =>
      rw [hs] at hloose
      exact absurd hloose nofun
    | ok s =>
      rw [hs] at hloose
      obtain ⟨hkey, hcount⟩ := Prod.mk.inj (Option.some.inj hloose)
      exact ⟨s, rfl, hkey, hcount, json_round_trip.2 _ s hs⟩

end Sketch

end DistinctCount
