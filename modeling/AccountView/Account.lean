import AccountView.Role
import AccountView.Stamp

namespace AccountView

/-! Accounts as a service describes them. A time that the service left unset is absent. -/

@[ext] structure Account where
  id : Int64 := 0
  username : String := ""
  nickname : String := ""
  email : String := ""
  phone : String := ""
  role : Role := .unspecified
  createdAt : Stamp := none
  updatedAt : Stamp := none
  passwordExpiresAt : Stamp := none
  deriving DecidableEq, Inhabited

end AccountView
