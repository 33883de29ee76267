namespace AccountView

/-! How long ago something was, told in the largest unit that fills. -/

inductive Age where
  | justNow
  | minutes (count : Nat)
  | hours (count : Nat)
  | days (count : Nat)
  | older
  deriving DecidableEq

namespace Age

/-- Each unit is a whole number of the next smaller one and rounds down. What lies ahead is
`justNow`, and from 30 days on only the date tells. -/
def ofElapsed (nanos : Int) : Age :=
  let seconds := nanos.toNat / 1000000000
  let minutes := seconds / 60
  let hours := minutes / 60
  let days := hours / 24
  if seconds < 60 then
    .justNow
  else if minutes < 60 then
    .minutes minutes
  else if hours < 24 then
    .hours hours
  else if days < 30 then
    .days days
  else
    .older

/-- The words for an age, with `date` for those past counting. -/
def text (date : String) : Age → String
  | .justNow => "刚刚"
  | .minutes n => toString n ++ "分钟前"
  | .hours n => toString n ++ "小时前"
  | .days n => toString n ++ "天前"
  | .older => date

end Age

end AccountView
