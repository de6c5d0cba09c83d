import MetaInline.Text.Basic
import MetaInline.Unicode.Printable

namespace MetaInline.Quoted

def hex (width n : Nat) : Text :=
  let ds := Nat.toDigits 16 n
  List.replicate (width - ds.length) '0' ++ ds

def dataChar (c : Char) : Text :=
  if c = '"' then ['\\', '"']
  else if c = '\\' then ['\\', '\\']
  else if c = '\n' then ['\\', 'n']
  else if c = '\r' then ['\\', 'r']
  else if c = '\t' then ['\\', 't']
  else if c = '\x08' then ['\\', 'b']
  else if c = '\x0c' then ['\\', 'f']
  else if c.toNat < 0x20 then '\\' :: 'u' :: hex 4 c.toNat
  else [c]

def data (s : Text) : Text :=
  '"' :: s.flatMap dataChar ++ ['"']

def displayChar (c : Char) : Text :=
  if c = '"' then ['\\', '"']
  else if c = '\\' then ['\\', '\\']
  else if c = '\n' then ['\\', 'n']
  else if c = '\r' then ['\\', 'r']
  else if c = '\t' then ['\\', 't']
  else if c = '\x00' then ['\\', '0']
  else if Unicode.isPrintable c then [c]
  else ['\\', 'u', '\x7b'] ++ hex 1 c.toNat ++ ['\x7d']

def display (s : Text) : Text :=
  '"' :: s.flatMap displayChar ++ ['"']

end MetaInline.Quoted
