import AssetAccess.Calendar.Timestamp
set_option autoImplicit false

/-!
# Clocks

What rules see of the current time: the time of day where the service runs and in UTC,
both to the minute.
-/

namespace AssetAccess

/-- A clock reading. -/
structure Clock where
  /-- the local time of day -/
  localTime : TimeOfDay
  /-- the time of day in UTC -/
  utcTime : TimeOfDay
  deriving DecidableEq

namespace Clock

/-- A clock that stands at a timestamp, whose own offset is the local one. -/
def ofTimestamp (t : Timestamp) : Clock := ⟨t.time.toMinute, t.utcMinuteOfDay⟩

instance : Inhabited Clock := ⟨ofTimestamp Timestamp.epoch⟩

end Clock

end AssetAccess
