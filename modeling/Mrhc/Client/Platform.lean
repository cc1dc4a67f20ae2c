import Mrhc.Framework.Bytes

/-!
# Code outside the repository

The functions of OpenCV, Xlib and httpd that the client and the handler call. They are parameters
of the model; what a result relies on is a hypothesis about them.
-/

namespace Mrhc

/-- A `cv::Scalar` of three 8-bit channels, in OpenCV's order. -/
structure Scalar where
  blue : UInt8
  green : UInt8
  red : UInt8
deriving DecidableEq, Repr

/-- A `CV_8UC3` matrix; `pixel x y` is the element at column `x` and row `y`. -/
structure Mat where
  rows : Nat
  cols : Nat
  pixel : Nat → Nat → Scalar

structure Point where
  x : Nat
  y : Nat
deriving DecidableEq, Repr

/-- The longest side of an image that JPEG holds. -/
def jpegMaxDimension : Nat := 65500

/-- The external functions. `rectangle` stands for `cv::rectangle` with thickness -1 and `CV_AA`,
`imencode` for `cv::imencode` with extension `.jpeg` on the images that it encodes: that it throws
on an image without pixels or with a side that JPEG cannot hold is left out. `apGetword` returns the
word and the rest of the line, `apCstrCasecmp` is zero on strings that are equal up to case. Beside
them `imageTail` is what a read of `image_buf` behind its elements finds at an index, in the storage
that `clear` keeps or in the heap: `none` where it faults. -/
structure Platform where
  rectangle : Mat → Point → Point → Scalar → Mat
  imencode : Mat → Bytes
  imageTail : Nat → Option UInt32
  xStringToKeysym : Bytes → UInt32
  apGetword : Bytes → UInt8 → Bytes × Bytes
  apCstrCasecmp : Bytes → Bytes → Int
  apPbase64decode : Bytes → Bytes

/-- The box with the inclusive corners `p` and `q`, filled inside the image. -/
def fillBox (m : Mat) (p q : Point) (colour : Scalar) : Mat :=
  { m with
    pixel := fun x y =>
      if x < m.cols ∧ y < m.rows ∧ p.x ≤ x ∧ x ≤ q.x ∧ p.y ≤ y ∧ y ≤ q.y then colour
      else m.pixel x y }

/-- `cv::rectangle` sets exactly the in-image pixels of the inclusive corner box. -/
def Platform.FillsBox (lib : Platform) : Prop :=
  ∀ (m : Mat) (p q : Point) (colour : Scalar), p.x ≤ q.x → p.y ≤ q.y →
    lib.rectangle m p q colour = fillBox m p q colour

/-- The word up to the first `stop` and the line after all its `stop`s. -/
def getword (line : Bytes) (stop : UInt8) : Bytes × Bytes :=
  (line.takeWhile (· ≠ stop), (line.dropWhile (· ≠ stop)).dropWhile (· = stop))

def lowercase (b : UInt8) : UInt8 := if 0x41 ≤ b ∧ b ≤ 0x5a then b + 0x20 else b

/-- The value of a character of the base64 alphabet. -/
def base64value (b : UInt8) : Option UInt8 :=
  if 0x41 ≤ b ∧ b ≤ 0x5a then some (b - 0x41)
  else if 0x61 ≤ b ∧ b ≤ 0x7a then some (b - 0x61 + 26)
  else if 0x30 ≤ b ∧ b ≤ 0x39 then some (b - 0x30 + 52)
  else if b = 0x2b then some 62
  else if b = 0x2f then some 63
  else none

/-- The bytes of a list of 6-bit values. -/
def base64bytes : List UInt8 → Bytes
  | a :: b :: c :: d :: rest =>
    (a <<< 2 ||| b >>> 4) :: (b <<< 4 ||| c >>> 2) :: (c <<< 6 ||| d) :: base64bytes rest
  | [a, b, c] => [a <<< 2 ||| b >>> 4, b <<< 4 ||| c >>> 2]
  | [a, b] => [a <<< 2 ||| b >>> 4]
  | _ => []

/-- The decoding stops at the first character that is not in the alphabet. -/
def base64decode (text : Bytes) : Bytes :=
  base64bytes ((text.takeWhile fun b => (base64value b).isSome).filterMap base64value)

/-- A platform to evaluate the model on: it draws, compares and decodes as the libraries do, encodes
every image as nothing, and faults on reads behind `image_buf`. -/
def Platform.plain : Platform where
  rectangle := fillBox
  imencode := fun _ => []
  imageTail := fun _ => none
  xStringToKeysym := fun _ => 0
  apGetword := getword
  apCstrCasecmp := fun a b => if a.map lowercase = b.map lowercase then 0 else 1
  apPbase64decode := base64decode

theorem Platform.plain_fillsBox : Platform.plain.FillsBox := fun _ _ _ _ _ _ => rfl

end Mrhc
