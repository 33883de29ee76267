import AccountView.CommandLine.Reader

namespace AccountView

/-! Command lines of settings that take one argument each, and the numerals in them. -/

/-! ### Numerals -/

theorem Decimal.int?_toDigits (n : Nat) : int? (Nat.toDigits 10 n) = some (n : Int) := by
  obtain ⟨c, digits, htext⟩ := List.exists_cons_of_ne_nil (Nat.toDigits_ne_nil (n := n) (b := 10))
  have hdigit : c.isDigit = true :=
    Nat.isDigit_of_mem_toDigits (by decide) (by decide) (htext ▸ List.mem_cons_self)
  have hminus : c ≠ '-' := by rintro rfl; contradiction
  have hplus : c ≠ '+' := by rintro rfl; contradiction
  have hread := nat?_toDigits n
  rw [htext] at hread ⊢
  simp [int?, hminus, hplus, hread]

theorem Decimal.int?_toString (n : Int) : int? (toString n).toList = some n := by
  cases n with
  | ofNat n =>
      have htext : (toString (Int.ofNat n)).toList = Nat.toDigits 10 n := toList_toString n
      rw [htext, int?_toDigits]
      rfl
  | negSucc n =>
      have htext : (toString (Int.negSucc n)).toList = '-' :: Nat.toDigits 10 (n + 1) := by
        rw [← toList_toString (n + 1)]
        exact String.toList_append
      rw [htext, int?, nat?_toDigits]
      rfl

namespace CommandLine

theorem int64?_toString (n : Int64) : int64? (toString n.toInt) = some n := by
  have hmin := n.le_toInt
  have hmax := n.toInt_lt
  have hrange : -9223372036854775808 ≤ n.toInt ∧ n.toInt ≤ 9223372036854775807 := by omega
  rw [int64?, Decimal.int?_toString, Option.bind_eq_bind, Option.bind_some, if_pos hrange,
    Int64.ofInt_toInt]

theorem int32?_toString (n : Int32) : int32? (toString n.toInt) = some n := by
  have hmin := n.le_toInt
  have hmax := n.toInt_lt
  have hrange : -2147483648 ≤ n.toInt ∧ n.toInt ≤ 2147483647 := by omega
  rw [int32?, Decimal.int?_toString, Option.bind_eq_bind, Option.bind_some, if_pos hrange,
    Int32.ofInt_toInt]

theorem ofName?_name (style : Style) : Style.ofName? style.name = some style := by
  cases style <;> rfl

/-! ### Settings -/

def ValueOption.name : ValueOption → String
  | now => "now"
  | seconds => "seconds"
  | nanos => "nanos"
  | style => "style"

def Flag.name : Flag → String
  | zulu => "zulu"
  | quiet => "quiet"
  | verbose => "verbose"
  | help => "help"
  | version => "version"

/-- What one argument asks for. -/
inductive Setting where
  | value (o : ValueOption) (text : String)
  | flag (f : Flag)
  | file (path : String)
  deriving DecidableEq

namespace Setting

def arg : Setting → String
  | value o text => "--" ++ o.name ++ "=" ++ text
  | flag f => "--" ++ f.name
  | file path => path

end Setting

def settingArgs (outer : List Setting) (name : String) (inner : List Setting) : List String :=
  outer.map Setting.arg ++ name :: inner.map Setting.arg

/-! ### Command lines at a given time -/

def nowSettings (text : String) (zulu : Bool) : List Setting :=
  .value .now text :: if zulu then [.flag .zulu] else []

def formatSettings (time : WireTime) (style : Style) : List Setting :=
  [.value .seconds (toString time.seconds.toInt), .value .nanos (toString time.nanos.toInt),
    .value .style style.name]

def formatArgs (text : String) (zulu : Bool) (time : WireTime) (style : Style) : List String :=
  settingArgs (nowSettings text zulu) "format" (formatSettings time style)

def profileArgs (text : String) (zulu : Bool) (file : String) : List String :=
  settingArgs (nowSettings text zulu) "profile" [.file file]

example : formatArgs "1970-01-01T00:00:00Z" true ⟨-5, 0⟩ .relative =
    ["--now=1970-01-01T00:00:00Z", "--zulu", "format", "--seconds=-5", "--nanos=0",
      "--style=relative"] := by decide

end CommandLine

end AccountView
