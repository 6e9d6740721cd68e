import MiniCloud.Lib.GoMap
import MiniCloud.Lib.Text

/-!
# Files with hard links

A name refers to an inode and an inode has bytes, so two names may refer to the same bytes. A write
goes to an inode and is seen under every name of it; linking and removing only touch one name. A
name refers to an allocated inode, which is part of the type, so a new inode has no name.
-/

namespace MiniCloud.Lib

structure Files where
  names : GoMap GoString Nat
  contents : Nat → GoString
  next : Nat
  allocated : ∀ name inode, names.get? name = some inode → inode < next

namespace Files

/-- The bytes a name refers to. -/
def read? (fs : Files) (name : GoString) : Option GoString := (fs.names.get? name).map fs.contents

variable {new old other : GoString} {inode : Nat}

/-- A name may be given an allocated inode. -/
theorem allocated_set {names : GoMap GoString Nat} {next bound : Nat}
    (h : ∀ name inode, names.get? name = some inode → inode < next) (hbound : next ≤ bound)
    (hinode : inode < bound) :
    ∀ name i, (names.set new inode).get? name = some i → i < bound :=
  GoMap.forall_set (fun name i hi => (h name i hi).trans_le hbound) hinode

theorem allocated_delete {names : GoMap GoString Nat} {next : Nat}
    (h : ∀ name inode, names.get? name = some inode → inode < next) (old : GoString) :
    ∀ name i, (names.delete old).get? name = some i → i < next :=
  fun name i hi => h name i (GoMap.get?_delete_some hi).2

/-- `O_CREATE|O_EXCL` of a name that does not exist: the next inode, with no bytes. -/
def create (fs : Files) (name : GoString) : Files where
  names := fs.names.set name fs.next
  contents := fun inode => if inode = fs.next then [] else fs.contents inode
  next := fs.next + 1
  allocated := allocated_set fs.allocated (Nat.le_succ _) (Nat.lt_succ_self _)

/-- Replace the bytes of an inode. -/
def write (fs : Files) (inode : Nat) (bytes : GoString) : Files :=
  { fs with contents := fun i => if i = inode then bytes else fs.contents i }

/-- A second name for what `old` refers to. -/
def link (fs : Files) (old new : GoString) : Files :=
  match h : fs.names.get? old with
  | none => fs
  | some inode => { fs with
    names := fs.names.set new inode
    allocated := allocated_set fs.allocated le_rfl (fs.allocated old inode h) }

/-- Take a name away; its inode keeps its bytes. -/
def remove (fs : Files) (name : GoString) : Files :=
  { fs with
    names := fs.names.delete name
    allocated := allocated_delete fs.allocated name }

variable {fs : Files} {name : GoString}

@[simp] theorem names_create : (fs.create name).names = fs.names.set name fs.next := rfl

@[simp] theorem names_write {bytes : GoString} :
    (fs.write inode bytes).names = fs.names := rfl

@[simp] theorem names_remove : (fs.remove name).names = fs.names.delete name := rfl

theorem names_link (h : fs.names.get? old = some inode) :
    (fs.link old new).names = fs.names.set new inode := by
  unfold link
  split
  next hnone => cases h.symm.trans hnone
  next found hfound =>
    cases h.symm.trans hfound
    rfl

theorem contents_link : (fs.link old new).contents = fs.contents := by
  unfold link
  split
  next => rfl
  next => rfl

/-- The bytes of a name that exists stay when another one is created. -/
theorem read?_create_ne (h : other ≠ name) :
    (fs.create name).read? other = fs.read? other := by
  rw [read?, read?, names_create, GoMap.get?_set_ne _ _ h]
  cases hother : fs.names.get? other with
  | none => rfl
  | some inode =>
    have hlt := fs.allocated other inode hother
    simp only [Option.map_some, create]
    rw [if_neg (by omega)]

theorem read?_write_ne {bytes : GoString} (h : fs.names.get? name ≠ some inode) :
    (fs.write inode bytes).read? name = fs.read? name := by
  rw [read?, read?, names_write]
  cases hname : fs.names.get? name with
  | none => rfl
  | some i =>
    have hne : i ≠ inode := by
      rintro rfl
      exact h hname
    simp only [Option.map_some, write]
    rw [if_neg hne]

theorem read?_link_self (h : fs.names.get? old = some inode) :
    (fs.link old new).read? new = some (fs.contents inode) := by
  rw [read?, names_link h, contents_link, GoMap.get?_set_self]
  rfl

theorem read?_link_ne (h : fs.names.get? old = some inode) (hne : other ≠ new) :
    (fs.link old new).read? other = fs.read? other := by
  rw [read?, names_link h, contents_link, GoMap.get?_set_ne _ _ hne]
  rfl

theorem read?_remove_ne (h : other ≠ name) :
    (fs.remove name).read? other = fs.read? other := by
  rw [read?, names_remove, GoMap.get?_delete_ne _ h]
  rfl

theorem read?_remove_self : (fs.remove name).read? name = none := by
  rw [read?, names_remove, GoMap.get?_delete_self]
  rfl

end Files

end MiniCloud.Lib
