import Mathlib.Data.Rat.Defs

namespace TwoWayRadio

/-- Static profile of a radio channel. Decimal fields are exact rationals. -/
structure ChannelDef where
  id : ℤ
  name : String
  frequency : ℚ := 0
  ctcss : ℚ := 0
  color : String := ""
  latitude : ℚ := 0
  longitude : ℚ := 0
  coverageKm : ℚ := 0
  region : String := ""
  isPrivate : Bool := false
  password : String := ""
deriving DecidableEq

/-- Durations are in nanoseconds, as `time.Duration` counts them. -/
structure Config where
  totDuration : ℤ
  defaultChannels : List ChannelDef
deriving DecidableEq

def second : ℤ := 1000000000

def defaultConfig : Config where
  totDuration := 60 * second
  defaultChannels := [
    { id := 1, name := "CH 01 - CENTRAL DISPATCH", frequency := 446.00625, ctcss := 67,
      color := "#e74c3c", latitude := 11.5564, longitude := 104.9282, coverageKm := 15,
      region := "Central / Wat Phnom" },
    { id := 2, name := "CH 02 - NORTH SECTOR", frequency := 446.01875, ctcss := 88.5,
      color := "#3498db", latitude := 11.5850, longitude := 104.8980, coverageKm := 12,
      region := "North / Toul Kork" },
    { id := 3, name := "CH 03 - SOUTH SECTOR", frequency := 446.03125, ctcss := 103.5,
      color := "#2ecc71", latitude := 11.5300, longitude := 104.9250, coverageKm := 12,
      region := "South / Chamkarmon" },
    { id := 4, name := "CH 04 - OPERATIONS / WEST", frequency := 446.04375, ctcss := 118.8,
      color := "#f39c12", latitude := 11.5466, longitude := 104.8441, coverageKm := 20,
      region := "West / Airport" },
    { id := 5, name := "CH 05 - SECURITY / EAST", frequency := 446.05625, ctcss := 131.8,
      color := "#9b59b6", latitude := 11.5720, longitude := 104.9450, coverageKm := 10,
      region := "East / Chroy Changvar" },
    { id := 6, name := "CH 06 - CONVOY / LOGISTICS", frequency := 446.06875, ctcss := 156.7,
      color := "#1abc9c", latitude := 11.5000, longitude := 104.8700, coverageKm := 25,
      region := "Southwest / Highway" },
    { id := 7, name := "CH 07 - MEDICAL / RESCUE", frequency := 446.08125, ctcss := 173.8,
      color := "#e67e22", latitude := 11.5650, longitude := 104.9190, coverageKm := 10,
      region := "Calmette / Hospital Zone" },
    { id := 8, name := "CH 08 - EMERGENCY CALL", frequency := 446.09375, ctcss := 250.3,
      color := "#e84118", latitude := 11.5583, longitude := 104.9121, coverageKm := 50,
      region := "Citywide Emergency" }]

end TwoWayRadio
