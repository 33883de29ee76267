import AccountView.Account
import AccountView.Countdown
import AccountView.Viewpoint

namespace AccountView

/-! Profiles: an account as a person reads it, a heading and labelled rows. The rows on the password
stand only where the account has an expiry. -/

structure Row where
  label : String
  value : String
  deriving DecidableEq

def Row.line (row : Row) : String :=
  row.label ++ ": " ++ row.value ++ "\n"

structure Profile where
  heading : String
  rows : List Row
  deriving DecidableEq

namespace Profile

def remainingText (millis : Nat) : String :=
  "剩余" ++ (Countdown.ofMillis millis).text

def statusText (expiry : Stamp) (now : Instant) : String :=
  if expiry.isExpired now then Stamp.expiredText else remainingText (expiry.remaining now)

def accountRows (account : Account) (zone : Zone) : List Row :=
  [⟨"用户名", account.username⟩, ⟨"邮箱", account.email⟩, ⟨"电话", account.phone⟩,
    ⟨"角色", account.role.label⟩, ⟨"创建时间", account.createdAt.full zone⟩,
    ⟨"更新时间", account.updatedAt.full zone⟩]

def passwordRows (expiry : Stamp) (now : Instant) (zone : Zone) : List Row :=
  if expiry.isSome then
    [⟨"密码过期时间", expiry.full zone⟩, ⟨"密码状态", statusText expiry now⟩]
  else
    []

def ofAccount (account : Account) (now : Instant) (zone : Zone) : Profile where
  heading := account.nickname
  rows := accountRows account zone ++ passwordRows account.passwordExpiresAt now zone

def value? (profile : Profile) (label : String) : Option String :=
  (profile.rows.find? (·.label == label)).map (·.value)

def text (profile : Profile) : String :=
  profile.heading ++ "\n" ++ String.join (profile.rows.map Row.line)

end Profile

def Viewpoint.profile (view : Viewpoint) (dials : Dials) (account : Account) : Profile :=
  .ofAccount account (view.now dials) view.zone

end AccountView
