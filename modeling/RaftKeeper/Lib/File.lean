import Mathlib.Data.List.Basic

/-!
# Contents of files

A file is a list of bytes. Writing at a position overwrites what is there and fills a gap
with zeros; reading at an offset returns what is left of the file if that is less.
-/

open List

namespace File

variable {content bytes : List UInt8}

def write (content : List UInt8) (position : ℕ) (bytes : List UInt8) : List UInt8 :=
  content.take position ++ replicate (position - content.length) 0 ++ bytes ++
    content.drop (position + bytes.length)

def pread (content : List UInt8) (offset size : ℕ) : List UInt8 := (content.drop offset).take size

def truncate (content : List UInt8) (size : ℕ) : List UInt8 :=
  content.take size ++ replicate (size - content.length) 0

theorem write_end (content bytes : List UInt8) :
    write content content.length bytes = content ++ bytes := by
  rw [write, take_length, Nat.sub_self, replicate_zero, append_nil,
    drop_of_length_le (Nat.le_add_right _ _), append_nil]

theorem pread_append {before : List UInt8} {offset : ℕ} (isOffset : before.length = offset)
    (after : List UInt8) : pread (before ++ (bytes ++ after)) offset bytes.length = bytes := by
  rw [pread, drop_left' isOffset, take_left]

theorem truncate_append {before : List UInt8} {size : ℕ} (isSize : before.length = size)
    (after : List UInt8) : truncate (before ++ after) size = before := by
  have notLonger : size - (before ++ after).length = 0 := by
    rw [length_append]
    omega
  rw [truncate, take_left' isSize, notLonger, replicate_zero, append_nil]

end File
