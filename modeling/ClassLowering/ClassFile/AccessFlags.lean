/-! # Access flags

The sixteen flag bits of a class, a field or a method, and the ones that matter for lowering. -/

namespace ClassLowering

/-- A set of access flags. -/
structure AccessFlags where
  bits : UInt16
  deriving DecidableEq, Repr

namespace AccessFlags

/-- Whether all bits of a mask are set. -/
def has (flags : AccessFlags) (mask : UInt16) : Bool := flags.bits &&& mask == mask

/-- Visible everywhere. -/
def isPublic (flags : AccessFlags) : Bool := flags.has 0x0001

/-- Visible in its class only. -/
def isPrivate (flags : AccessFlags) : Bool := flags.has 0x0002

/-- Belongs to the class and not to its objects. -/
def isStatic (flags : AccessFlags) : Bool := flags.has 0x0008

/-- Never overridden or reassigned. -/
def isFinal (flags : AccessFlags) : Bool := flags.has 0x0010

/-- Implemented outside of class files. -/
def isNative (flags : AccessFlags) : Bool := flags.has 0x0100

/-- An interface. -/
def isInterface (flags : AccessFlags) : Bool := flags.has 0x0200

/-- Without an implementation of its own. -/
def isAbstract (flags : AccessFlags) : Bool := flags.has 0x0400

end AccessFlags

end ClassLowering
