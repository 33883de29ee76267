namespace AccountView

/-! Roles of an account. Only the roles that the service defines have a number of their own. -/

inductive Role where
  | unspecified
  | user
  | admin
  deriving DecidableEq, Inhabited

namespace Role

/-- A number that the service does not define is `unspecified`. -/
def ofWire (n : Int32) : Role :=
  if n = 1 then user else if n = 2 then admin else unspecified

def toWire : Role → Int32
  | unspecified => 0
  | user => 1
  | admin => 2

@[simp] theorem ofWire_toWire (role : Role) : ofWire role.toWire = role := by
  cases role <;> rfl

def name : Role → String
  | unspecified => "Unspecified"
  | user => "User"
  | admin => "Admin"

def label : Role → String
  | unspecified => "未知"
  | user => "用户"
  | admin => "管理员"

def isGranting (role : Role) : Bool :=
  role != unspecified

end Role

end AccountView
