import Mrhc.Framework.Attempts
import Mrhc.Framework.Bytes
import Mrhc.Framework.Codec
import Mrhc.Framework.Des
import Mrhc.Framework.Descriptors
import Mrhc.Framework.Feistel
import Mrhc.Framework.Fields
import Mrhc.Framework.Heap
import Mrhc.Framework.Markup
import Mrhc.Framework.Programs
import Mrhc.Framework.Coupling
import Mrhc.Framework.Raster
import Mrhc.Framework.Runs
import Mrhc.Framework.Socket
import Mrhc.Framework.Split
import Mrhc.Client.D3des
import Mrhc.Client.D3desInjective
import Mrhc.Client.D3desInverse
import Mrhc.Client.D3desKeys
import Mrhc.Client.D3desComplement
import Mrhc.Client.D3desSchedule
import Mrhc.Client.D3desStandard
import Mrhc.Client.Platform
import Mrhc.Client.Protocol
import Mrhc.Client.ServerMessages
import Mrhc.Client.VncClient
import Mrhc.Client.Logger
import Mrhc.Client.Handshake
import Mrhc.Client.HandshakeRuns
import Mrhc.Client.Response
import Mrhc.Client.Authentication
import Mrhc.Client.Frames
import Mrhc.Client.Underway
import Mrhc.Client.Segmentation
import Mrhc.Client.Messages
import Mrhc.Client.Payload
import Mrhc.Client.Rectangles
import Mrhc.Client.MessageRuns
import Mrhc.Client.Termination
import Mrhc.Client.Framing
import Mrhc.Client.Drawing
import Mrhc.Client.Operation
import Mrhc.Client.DrawnImage
import Mrhc.Client.Sizes
import Mrhc.Client.ScreenImage
import Mrhc.Client.PointerMark
import Mrhc.Client.Interleaving
import Mrhc.Client.Composition
import Mrhc.Client.Connecting
import Mrhc.Client.Members
import Mrhc.Client.ServerInit
import Mrhc.Client.CutText
import Mrhc.Client.BufferedPixels
import Mrhc.Client.PayloadLoop
import Mrhc.Client.SecurityChoice
import Mrhc.Client.Opening
import Mrhc.Client.Dialogues
import Mrhc.Client.StandardServer
import Mrhc.Client.ClientMessages
import Mrhc.Client.Outgoing
import Mrhc.Client.EncodedUpdates
import Mrhc.Client.Screenshot
import Mrhc.Client.FreshPixels
import Mrhc.Client.Views
import Mrhc.Client.Receipts
import Mrhc.Client.Colours
import Mrhc.Handler.Request
import Mrhc.Handler.Pages
import Mrhc.Handler.Handler
import Mrhc.Handler.Outcomes
import Mrhc.Handler.Requests
import Mrhc.Handler.Answers
import Mrhc.Handler.Owner
import Mrhc.Handler.ReadyClient
import Mrhc.Handler.Login
import Mrhc.Handler.Spin
import Mrhc.Handler.Numerals
import Mrhc.Handler.Query
import Mrhc.Handler.Decimal
import Mrhc.Handler.PageStructure
import Mrhc.Handler.Clicks
import Mrhc.Handler.SplitString
import Mrhc.Handler.QueryPairs
import Mrhc.Handler.Keys
import Mrhc.Handler.PointerNumbers
import Mrhc.Handler.Base64
import Mrhc.Handler.Credentials
import Mrhc.Handler.InStep
import Mrhc.Handler.Objects
import Mrhc.Handler.ObjectCalls
import Mrhc.Handler.ObjectRuns
import Mrhc.Handler.Lifecycle
import Mrhc.Handler.Viewer
import Mrhc.Handler.ViewerRuns
import Mrhc.Handler.RemoteHost
import Mrhc.Handler.Hearing
import Mrhc.Handler.Painting
import Mrhc.Handler.Images
import Mrhc.Handler.Indifference
import Mrhc.Handler.Conversations
import Mrhc.Handler.Sockets
import Mrhc.Handler.Fates
import Mrhc.Client.Recut
import Mrhc.Handler.Passwords
import Mrhc.Handler.Segments
