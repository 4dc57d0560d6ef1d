import Docket.Calendar.Error
import Docket.Calendar.Holiday

/-! Holidays are published one by one and never withdrawn. Those who reckon with them ask for
the holidays of one division between two dates, and may be refused. -/
namespace Docket.Calendar
open Docket.Time

/-- A question for the holidays of a division from one date to another, both included. -/
structure Query where
  division : Division
  first : Date
  last : Date
deriving DecidableEq

/-- Whether a holiday answers a question. -/
def Query.asksFor (query : Query) (holiday : PublicHoliday) : Bool :=
  holiday.division = query.division && query.first.day ≤ holiday.date.day &&
    holiday.date.day ≤ query.last.day

/-- Whoever answers questions for holidays. -/
abbrev Lookup := Query → Except LookupError (List PublicHoliday)

/-- The holidays published so far, the earliest publication first. -/
structure Published where
  holidays : List PublicHoliday := []

namespace Published

/-- Publishes one more holiday. -/
def publish (published : Published) (holiday : PublicHoliday) : Published :=
  ⟨published.holidays ++ [holiday]⟩

/-- The published holidays that a question asks for, in the order of their publication. -/
def find (published : Published) (query : Query) : List PublicHoliday :=
  published.holidays.filter query.asksFor

/-- Answers every question from what is published; a division without holidays is no error. -/
def lookup (published : Published) : Lookup := fun query => .ok (published.find query)

theorem mem_find {published : Published} {query : Query} {holiday : PublicHoliday} :
    holiday ∈ published.find query ↔
      holiday ∈ published.holidays ∧ holiday.division = query.division ∧
        query.first.day ≤ holiday.date.day ∧ holiday.date.day ≤ query.last.day := by
  simp [find, Query.asksFor, and_assoc]

end Published
end Docket.Calendar
