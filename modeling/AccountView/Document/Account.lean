import AccountView.Account
import AccountView.Document.Record

namespace AccountView

/-! Documents of wire times, roles and accounts: how each is read, and the one form in which each is
written. A reader takes more than a writer writes: blanks, any order of members, members of other
names, lists in place of objects. -/

namespace Document

def wireTimeSchema : Schema WireTime where
  title := "struct WireTimestamp"
  fields := [
    .of "seconds" true int64 fun seconds w => { w with seconds },
    .of "nanos" false int32 fun nanos w => { w with nanos }]

def wireTime : Reader WireTime := record wireTimeSchema ⟨0, 0⟩

/-- A role is written as its number. -/
def role : Reader Role := int32.map Role.ofWire

def accountSchema : Schema Account where
  title := "struct User"
  fields := [
    .of "id" false int64 fun id a => { a with id },
    .of "username" false string fun username a => { a with username },
    .of "nickname" false string fun nickname a => { a with nickname },
    .of "email" false string fun email a => { a with email },
    .of "phone" false string fun phone a => { a with phone },
    .of "role" false role fun role a => { a with role },
    .of "createdAt" false (nullable wireTime) fun createdAt a => { a with createdAt },
    .of "updatedAt" false (nullable wireTime) fun updatedAt a => { a with updatedAt },
    .of "passwordExpiresAt" false (nullable wireTime) fun passwordExpiresAt a =>
      { a with passwordExpiresAt }]

def account : Reader Account := record accountSchema {}

/-! ### Writing -/

def intText (n : Int) : List Char := (toString n).toList

def member (name : String) (value : List Char) : List Char :=
  Literal.encode name.toList ++ ':' :: value

def object (members : List (List Char)) : List Char :=
  '\x7b' :: [','].intercalate members ++ ['\x7d']

end Document

namespace WireTime

def toDocument (w : WireTime) : List Char :=
  Document.object [
    Document.member "seconds" (Document.intText w.seconds.toInt),
    Document.member "nanos" (Document.intText w.nanos.toInt)]

def ofDocument (text : String) : Except Document.Fault WireTime :=
  Document.wireTime.readAll text.toList

end WireTime

namespace Role

def toDocument (role : Role) : List Char := Document.intText role.toWire.toInt

def ofDocument (text : String) : Except Document.Fault Role :=
  Document.role.readAll text.toList

end Role

namespace Account

/-- A stamp has a member only if it is present. -/
def stampMembers (name : String) (stamp : Stamp) : List (List Char) :=
  (stamp.map fun w => Document.member name w.toDocument).toList

def toDocument (account : Account) : List Char :=
  Document.object (
    [Document.member "id" (Document.intText account.id.toInt),
      Document.member "username" (Document.Literal.encode account.username.toList),
      Document.member "nickname" (Document.Literal.encode account.nickname.toList),
      Document.member "email" (Document.Literal.encode account.email.toList),
      Document.member "phone" (Document.Literal.encode account.phone.toList),
      Document.member "role" account.role.toDocument] ++
    stampMembers "createdAt" account.createdAt ++ stampMembers "updatedAt" account.updatedAt ++
    stampMembers "passwordExpiresAt" account.passwordExpiresAt)

def ofDocument (text : String) : Except Document.Fault Account :=
  Document.account.readAll text.toList

end Account

end AccountView
