/-
`AccessFlags.lean` -- the modifier bits of classes and methods.

The class file keeps the modifiers of a class or member in sixteen bits. One
bit can mean different things in different places, so the tests here are named
for the place in which they are asked.
-/
set_option autoImplicit false

namespace JvmStub

/-- The modifiers of a class, field or method. -/
abbrev AccessFlags := UInt16

namespace AccessFlags

/-- Whether any bit of `mask` is set. -/
def meets (flags mask : AccessFlags) : Bool := flags &&& mask != 0

def isPublic (flags : AccessFlags) : Bool := meets flags 0x0001
def isPrivate (flags : AccessFlags) : Bool := meets flags 0x0002
def isProtected (flags : AccessFlags) : Bool := meets flags 0x0004
def isStatic (flags : AccessFlags) : Bool := meets flags 0x0008
def isFinal (flags : AccessFlags) : Bool := meets flags 0x0010
def isSynchronized (flags : AccessFlags) : Bool := meets flags 0x0020
def isNative (flags : AccessFlags) : Bool := meets flags 0x0100
def isInterface (flags : AccessFlags) : Bool := meets flags 0x0200
def isAbstract (flags : AccessFlags) : Bool := meets flags 0x0400
def isStrict (flags : AccessFlags) : Bool := meets flags 0x0800

/-- A method without a body: abstract or native. -/
def isBodiless (flags : AccessFlags) : Bool := flags.isAbstract || flags.isNative

end AccessFlags

end JvmStub
