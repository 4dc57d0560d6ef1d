import Docket.Json.Magnitude
import Docket.Wire.Scalar
import Docket.Proofs.InstantSpelling
import Docket.Proofs.TaskIdSpelling

/-! A record is written as members with keys of their own, so that a reader finds each of them
whatever stands around it. The values are texts and nulls: what a reader makes of one tells
whether it was there. -/
namespace Docket.RecordMembers
open Docket.Json Docket.Time

variable {members : List (String × Json)} {key : String} {value : Json}

/-- No key stands twice among members. -/
def Distinct (members : List (String × Json)) : Prop := (members.map Prod.fst).Nodup

theorem find_of_mem (distinct : Distinct members) (member : (key, value) ∈ members) :
    find members key = .once value := by
  have alone : members.filter (·.1 == key) = [(key, value)] := by
    unfold Distinct at distinct
    induction members with
    | nil => cases member
    | cons first members ih =>
      rw [List.map_cons, List.nodup_cons] at distinct
      obtain ⟨fresh, distinct⟩ := distinct
      rcases List.mem_cons.mp member with rfl | later
      · have others : members.filter (·.1 == key) = [] := by
          apply List.filter_eq_nil_iff.mpr
          intro other held same
          exact fresh (List.mem_map.mpr ⟨other, held, beq_iff_eq.mp same⟩)
        rw [List.filter_cons, if_pos (beq_self_eq_true key), others]
      · have other : ¬ (first.1 == key) = true := by
          intro same
          exact fresh (List.mem_map.mpr ⟨_, later, (beq_iff_eq.mp same).symm⟩)
        rw [List.filter_cons, if_neg other]
        exact ih distinct later
  simp only [find, alone]

variable {α : Type} {encode : α → Json} {read : Json → Option α}

theorem required_of_mem (distinct : Distinct members) (member : (key, value) ∈ members) :
    required members key read = read value := by
  rw [required, find_of_mem distinct member]

/-- What a member would be if it were missing plays no part where it stands. -/
theorem defaulted_of_mem (distinct : Distinct members) (member : (key, value) ∈ members)
    (missing : α) : defaulted members key missing read = read value := by
  rw [defaulted, find_of_mem distinct member]

/-- A writer's values can be read back and told from a null. -/
structure Readable (encode : α → Json) (read : Json → Option α) : Prop where
  present : ∀ a, encode a ≠ .null
  back : ∀ a, read (encode a) = some a

theorem optional_of_mem (readable : Readable encode read) (distinct : Distinct members)
    {a : Option α} (member : (key, ofOption encode a) ∈ members) :
    optional members key read = some a := by
  unfold Json.optional
  rw [find_of_mem distinct member]
  cases a with
  | none => rfl
  | some a =>
    rw [ofOption]
    split
    · rename_i absent
      cases absent
    · rename_i null
      exact absurd (Occurrence.once.inj null) (readable.present a)
    · rename_i found
      rw [← Occurrence.once.inj found, readable.back, Option.map_some]
    · rename_i repeats
      cases repeats

/-- A value that is written as a text is read through that text. -/
theorem readable_of_text {spell : α → String} {parse : String → Option α}
    (back : ∀ a, parse (spell a) = some a) :
    Readable (fun a => Json.text (spell a)) (fun document => document.text? >>= parse) where
  present := by
    intro a null
    cases null
  back := back

theorem readable_text : Readable Json.text text? where
  present := by
    intro text null
    cases null
  back := by
    intro text
    rfl

theorem readable_instant : Readable Instant.toJson Instant.ofJson? :=
  readable_of_text InstantSpelling.ofText?_text

theorem readable_date : Readable Date.toJson Date.ofJson? :=
  readable_of_text DateSpelling.ofText?_text

theorem readable_task : Readable TaskId.toJson TaskId.ofJson? :=
  readable_of_text TaskIdSpelling.ofText?_text

/-- A record is written as an object with one member for each of its keys, and read through its
members. -/
theorem readable_of_record {keys : List String} {opened : Json → Option (List (String × Json))}
    {ofMembers : List (String × Json) → Option α} (opens : ∀ own, opened (.object own) = some own)
    (apart : keys.Nodup) (object : ∀ a, ∃ own, encode a = .object own ∧ own.map Prod.fst = keys)
    (back : ∀ a own, encode a = .object own → Distinct own → ofMembers own = some a) :
    Readable encode fun document => opened document >>= ofMembers where
  present := by
    intro a null
    obtain ⟨own, written, -⟩ := object a
    cases null.symm.trans written
  back := by
    intro a
    obtain ⟨own, written, named⟩ := object a
    have distinct : Distinct own := by
      rw [Distinct, named]
      exact apart
    rw [written, opens, Option.bind_eq_bind, Option.bind_some]
    exact back a own written distinct

end Docket.RecordMembers
