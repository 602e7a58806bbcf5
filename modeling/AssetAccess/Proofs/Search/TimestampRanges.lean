import AssetAccess.Proofs.Calendar.Chronology
import AssetAccess.Proofs.Search.Agreement
set_option autoImplicit false

/-!
# Searching by time

A timestamp is put to the index as a text to the millisecond, and the index knows nothing of
time: it compares texts, byte by byte.  The text is nevertheless as good as the timestamp, as far
as it goes (`timestamps_order_as_written`).  It is read back as the timestamp to the millisecond,
and among the texts with one offset it stands where the instant stands, so that a range between
timestamps finds the documents whose timestamps lie there.
-/

namespace AssetAccess

/-- The text that a timestamp is put to the index as. -/
def Timestamp.millisText (t : Timestamp) : String := String.ofList t.writeMillis

/-- With one offset the texts order, byte by byte, as the instants to the millisecond do. -/
theorem Timestamp.byteOrder_millisText {s t : Timestamp} (h : s.offset = t.offset) :
    Text.byteOrder s.millisText t.millisText =
      compare s.toMillis.instant t.toMillis.instant := by
  rw [Text.byteOrder_eq_order, Text.order, millisText, millisText, String.toList_ofList,
    String.toList_ofList, orderChars_writeMillis h, compare_instant_toMillis h]

/-- So they are the same where the instants to the millisecond are. -/
theorem Timestamp.millisText_eq_iff {s t : Timestamp} (h : s.offset = t.offset) :
    s.millisText = t.millisText ↔ s.toMillis.instant = t.toMillis.instant := by
  rw [← Text.order_eq_iff, ← Text.byteOrder_eq_order, byteOrder_millisText h,
    Std.LawfulEqOrd.compare_eq_iff_eq]

/-- An operand whose literal is a timestamp: the timestamp itself, or what denotes it cast to
one. -/
inductive Operand.Dates : Operand → Timestamp → Prop where
  | value (t : Timestamp) : Dates (.dateTime t) t
  | cast {o : Operand} {t : Timestamp} : o.dateTime? = some t → Dates (.cast .dateTime o) t

theorem Operand.Dates.literal? {o : Operand} {t : Timestamp} (h : o.Dates t) :
    o.literal? = some (.text t.millisText) := by
  cases h with
  | value t => rfl
  | cast hdate => rw [Operand.literal?, hdate, Timestamp.millisText]

/-- The text of a timestamp is an operand that denotes the timestamp to the millisecond. -/
theorem Timestamp.dateTime?_millisText (t : Timestamp) :
    (Operand.text t.millisText).dateTime? = some t.toMillis := by
  rw [Operand.dateTime?, millisText, String.toList_ofList, read?_writeMillis]

/-- The clause of a comparison with a timestamp matches a document that holds the text of a
timestamp with the same offset where the comparison accepts the order of the instants. -/
theorem matchedBy_clause_millisText {r : Reading} {document : TextDocument}
    (hr : r.OfTexts document) {name : String} {s t : Timestamp}
    (hdocument : document name = some s.millisText) (hoffset : s.offset = t.offset)
    (op : Comparison) :
    (op.clause name (.text t.millisText)).matchedBy r =
      op.accepts (compare s.toMillis.instant t.toMillis.instant) := by
  rw [matchedBy_clause_text hr, hdocument, Option.map_some, Option.getD_some,
    ← Text.byteOrder_eq_order, Timestamp.byteOrder_millisText hoffset]

/-- Timestamps survive as texts, in order.  Every timestamp has a text, which is the literal of
an operand that denotes it, and is read as the timestamp to the millisecond: with the same offset,
at the instant rounded down to the millisecond.  With one offset, two texts order byte by byte as
these instants do, and are the same where they are.  So a comparison of a field with a timestamp,
on either side, matches a document that holds such a text where the comparison accepts the order
of the instants. -/
theorem timestamps_order_as_written :
    (∀ t : Timestamp,
      (∀ o : Operand, o.Dates t → o.literal? = some (.text t.millisText)) ∧
      (Operand.text t.millisText).dateTime? = some t.toMillis ∧
      t.toMillis.offset = t.offset ∧
      t.toMillis.instant = t.instant / 1000000 * 1000000) ∧
    (∀ s t : Timestamp, s.offset = t.offset →
      Text.byteOrder s.millisText t.millisText =
        compare s.toMillis.instant t.toMillis.instant ∧
      (s.millisText = t.millisText ↔ s.toMillis.instant = t.toMillis.instant)) ∧
    (∀ (r : Reading) (document : TextDocument), r.OfTexts document →
      ∀ (field o : Operand) (name : String) (s t : Timestamp),
        field.indexName? = some name → o.Dates t → s.offset = t.offset →
        document name = some s.millisText →
        ∀ op : Comparison,
          (Formula.comparison op [field, o]).compile.matchedBy r =
            op.accepts (compare s.toMillis.instant t.toMillis.instant) ∧
          (Formula.comparison op [o, field]).compile.matchedBy r =
            op.accepts (compare t.toMillis.instant s.toMillis.instant)) := by
  refine ⟨?_, ?_, ?_⟩
  · intro t
    exact ⟨fun o ho => ho.literal?, t.dateTime?_millisText, rfl, t.instant_toMillis⟩
  · intro s t hoffset
    exact ⟨Timestamp.byteOrder_millisText hoffset, Timestamp.millisText_eq_iff hoffset⟩
  · intro r document hr field o name s t hname ho hoffset hdocument op
    rw [op.compile_field_literal hname ho.literal?, op.compile_literal_field hname ho.literal?,
      matchedBy_clause_millisText hr hdocument hoffset,
      matchedBy_clause_millisText hr hdocument hoffset]
    refine ⟨rfl, ?_⟩
    have hswap : (compare t.toMillis.instant s.toMillis.instant).swap =
        compare s.toMillis.instant t.toMillis.instant := Std.OrientedOrd.eq_swap.symm
    rw [← hswap, Comparison.accepts_mirrored]

/-! ## Just before midnight -/

/-- A little before the midnight that ends the century, half an hour behind UTC. -/
def beforeMidnight : Timestamp :=
  ⟨⟨1999, 12, 31, by decide⟩, ⟨23, 59, 59, by decide⟩, 999600000, ⟨-30, by decide⟩, by decide⟩

/-- A second and a millisecond after that midnight. -/
def afterMidnight : Timestamp :=
  ⟨⟨2000, 1, 1, by decide⟩, ⟨0, 0, 1, by decide⟩, 1000000, ⟨-30, by decide⟩, by decide⟩

/-- A document that was measured a little before midnight. -/
def measuredDocument : TextDocument := fun field =>
  if field = "value.keyword" then some beforeMidnight.millisText else none

/-- The text of the time of the measurement keeps its offset of less than an hour, and comes before
that of a time after midnight.  So the document is found by a search for what was measured before
that time, on whichever side this stands, and not by one for what was measured from then on. -/
theorem measured_before_midnight :
    (Operand.cast .dateTime (.text "2000-01-01T00:00:01.001-00:30")).Dates afterMidnight ∧
    beforeMidnight.millisText = "1999-12-31T23:59:59.999-00:30" ∧
    (Operand.text "1999-12-31T23:59:59.999-00:30").dateTime? = some beforeMidnight.toMillis ∧
    Text.byteOrder beforeMidnight.millisText afterMidnight.millisText = .lt ∧
    (Reading.ofDocument measuredDocument).OfTexts measuredDocument ∧
    (Formula.comparison .lt [.field "$sme.measured#value",
      .cast .dateTime (.text "2000-01-01T00:00:01.001-00:30")]).compile.matchedBy
        (.ofDocument measuredDocument) = true ∧
    (Formula.comparison .gt [.dateTime afterMidnight,
      .field "$sme.measured#value"]).compile.matchedBy (.ofDocument measuredDocument) = true ∧
    (Formula.comparison .ge [.field "$sme.measured#value",
      .dateTime afterMidnight]).compile.matchedBy (.ofDocument measuredDocument) = false := by
  have hbound : (Operand.cast .dateTime (.text "2000-01-01T00:00:01.001-00:30")).Dates
      afterMidnight := .cast (by decide +kernel)
  have htext : beforeMidnight.millisText = "1999-12-31T23:59:59.999-00:30" := by decide +kernel
  have horder : compare beforeMidnight.toMillis.instant afterMidnight.toMillis.instant = .lt := by
    decide +kernel
  have hswapped : compare afterMidnight.toMillis.instant beforeMidnight.toMillis.instant =
      .gt := by decide +kernel
  have hreading := Reading.ofDocument_ofTexts measuredDocument
  have hfield : (Operand.field "$sme.measured#value").indexName? = some "value.keyword" := by
    decide +kernel
  have hoffset : beforeMidnight.offset = afterMidnight.offset := rfl
  have hdocument : measuredDocument "value.keyword" = some beforeMidnight.millisText := rfl
  obtain ⟨hread, hbytes, hfound⟩ := timestamps_order_as_written
  obtain ⟨_, hback, _⟩ := hread beforeMidnight
  obtain ⟨hbefore, _⟩ := hbytes beforeMidnight afterMidnight hoffset
  have hcast := hfound _ _ hreading _ _ _ _ _ hfield hbound hoffset hdocument
  have hvalue := hfound _ _ hreading _ _ _ _ _ hfield (.value afterMidnight) hoffset hdocument
  rw [horder] at hbefore
  rw [htext] at hback
  simp only [horder, hswapped] at hcast hvalue
  exact ⟨hbound, htext, hback, hbefore, hreading, (hcast .lt).1, (hvalue .gt).2, (hvalue .ge).1⟩

end AssetAccess
