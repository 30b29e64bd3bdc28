import NvVaapi.Jpeg.Safety
import NvVaapi.Jpeg.RoundTrip
import NvVaapi.Jpeg.Restart
import NvVaapi.Codec.Slices
import NvVaapi.Codec.Isolation
import NvVaapi.Driver.Queue
import NvVaapi.Driver.Resolve
import NvVaapi.Driver.GivenOut
import NvVaapi.Driver.Indices
import NvVaapi.Encode.Bounds
import NvVaapi.Objects.Table
import NvVaapi.Objects.Calls
import NvVaapi.Objects.Cleanup
import NvVaapi.Objects.Dangling
import NvVaapi.Objects.Stack
import NvVaapi.Objects.Failure
import NvVaapi.Objects.Mapping
import NvVaapi.Encode.Pending
import NvVaapi.Codec.Ranges
import NvVaapi.Image.Paths
import NvVaapi.Image.Coherence
import NvVaapi.Image.Formats
import NvVaapi.Objects.Attributes
import NvVaapi.Driver.Instances
import NvVaapi.Driver.Shutdown
import NvVaapi.Encode.Visible
import NvVaapi.Encode.Idr
import NvVaapi.Brackets
import NvVaapi.Encode.Startup
import NvVaapi.Encode.Ring
import NvVaapi.Encode.Status
import NvVaapi.Encode.Debounce
import NvVaapi.Encode.Resources
import NvVaapi.Encode.Rectangle
import NvVaapi.Encode.Rates
import NvVaapi.Export.Owned
import NvVaapi.Export.Format
import NvVaapi.Image.Content
import NvVaapi.Image.Shadow
import NvVaapi.Image.Readback
import NvVaapi.Codec.JpegPicture
import NvVaapi.Codec.Tables
import NvVaapi.Codec.AV1Picture
import NvVaapi.Codec.AV1SkipMode
import NvVaapi.Codec.ParamRanges
import NvVaapi.Buffer.Growth
import NvVaapi.Codec.IntraFlag
import NvVaapi.Codec.VP8Header
import NvVaapi.Objects.AttribOrder
import NvVaapi.Objects.DecoderFormats
import NvVaapi.Direct.Released
import NvVaapi.Direct.Gpu
import NvVaapi.Objects.HostBuffer
import NvVaapi.Buffer.Memory
import NvVaapi.Objects.Memory
import NvVaapi.Export.Sweep
import NvVaapi.Lib.Owners
import NvVaapi.Direct.Pool
import NvVaapi.Direct.Lifetime
import NvVaapi.Lib.Rank
import NvVaapi.Driver.Progress
import NvVaapi.Image.Drawing
import NvVaapi.Codec.ReferencePictures
import NvVaapi.Lib.Extend
import NvVaapi.Lib.Matches
import NvVaapi.Encode.Coded
import NvVaapi.Encode.Delivery
import NvVaapi.Lib.Filling
import NvVaapi.Image.Frames
import NvVaapi.Direct.Search
import NvVaapi.Direct.Displays
import NvVaapi.Lib.Compact
import NvVaapi.Objects.Profiles
